import PulseLink.Reaping

/-! Streams of framed packets, some with a header the worker rejects: a wrong version or more payload than
its buffer holds. The worker answers such a header and reads the next header right behind it, so the stream
stays in frame exactly when the rejected packet has no payload. What follows the packets it reads does not
matter. -/

namespace PulseLink

open Bytes

/-- A packet as the framing wants it: the magic number, and as much payload as the header announces. -/
structure Framed where
  header : PlHeader
  payload : List UInt8
  magic : header.magic = PL_MAGIC
  size : payload.length = header.payloadLen.toNat

namespace Framed

def wire (p : Framed) : List UInt8 := p.header.wire ++ p.payload

/-- The wrong version, or a payload that does not fit. -/
def Offending (p : Framed) : Prop := p.header.version ≠ PL_VERSION ∨ p.header.payloadLen > PL_MAX_PAYLOAD

instance (p : Framed) : Decidable p.Offending := inferInstanceAs (Decidable (_ ∨ _))

/-- What the framing checks make of the packet on its own. -/
def verdict (p : Framed) : Verdict :=
  match checkHeader p.header with
  | some e => .rejected e
  | none =>
      if plChecksum p.payload ≠ p.header.checksum then .rejected .badChecksum else .accepted p.payload

def decoded (p : Framed) : PlHeader × Verdict := (p.header, p.verdict)

theorem checkHeader_isSome (p : Framed) : (checkHeader p.header).isSome ↔ p.Offending := by
  rw [checkHeader, if_neg (fun hne => hne p.magic), Offending]
  by_cases hversion : p.header.version = PL_VERSION
  · rw [if_neg (fun hne => hne hversion)]
    by_cases hbig : p.header.payloadLen > PL_MAX_PAYLOAD
    · simp [hbig]
    · simp [hbig, hversion]
  · simp [hversion]

theorem length_le {p : Framed} (hcheck : checkHeader p.header = none) : p.payload.length ≤ 1100 := by
  rw [p.size]
  exact (checkHeader_eq_none.mp hcheck).2.2

end Framed

/-- The bytes of packets, one after the other. -/
def streamOf (packets : List Framed) : List UInt8 := packets.flatMap Framed.wire

theorem streamOf_cons (p : Framed) (packets : List Framed) : streamOf (p :: packets) = p.wire ++ streamOf packets :=
  List.flatMap_cons

/-- The connection carries these bytes, cut in any way, and is then closed. -/
structure Delivers (conn : Conn) (bs : List UInt8) : Prop where
  clean : Clean conn.script
  bytes : bytesOf conn.script = bs
  after : conn.after = .eof

/-- All of them in one arrival. -/
theorem delivers_scripted (bs : List UInt8) : Delivers (scripted (unread bs [])) bs := by
  have hnil : Clean [] := fun r hr => absurd hr List.not_mem_nil
  refine ⟨clean_unread hnil bs, ?_, rfl⟩
  exact (bytesOf_unread bs []).trans (List.append_nil bs)

/-! ### One packet -/

/-- What the worker makes of a packet it has read. -/
def serve (cfg : Config) (l : Locals) (p : Framed) : ServerProc Turn :=
  match checkHeader p.header with
  | some e => strikeOut cfg { l with idleTicks := 0 } p.header e
  | none => checkPayload cfg (l.received p.payload) p.header

/-- The events of receiving it. -/
def receiveEvents (p : Framed) : List (Event ServerSig) :=
  [⟨.loadRunning, true⟩, ⟨.readN PL_HDR_SIZE, .count p.header.wire⟩] ++
    if p.Offending then [] else payloadEvents p.payload

section Packet

variable {cfg : Config} {l : Locals} {p : Framed} {conn : Conn} {ctx : ServerCtx}

theorem serve_handles (cfg : Config) (l : Locals) (p : Framed) : (serve cfg l p).Uses (Handles l.dev) := by
  rw [serve]
  cases checkHeader p.header with
  | some e => exact strikeOut_handles cfg { l with idleTicks := 0 } p.header e
  | none => exact checkPayload_handles cfg (l.received p.payload) p.header

/-- **A rejected header keeps its payload in the stream.** In front of an offending packet, one turn reads
the header and comes to `strikeOut` with the payload still to be read. -/
theorem turn_offending (hstop : ctx.choices.stop = none) (hstate : l.state ≠ .closing) {rest : List UInt8}
    (hdelivers : Delivers conn (p.wire ++ rest)) (hoffending : p.Offending) :
    ∃ conn', Delivers conn' (p.payload ++ rest) ∧ conn'.sends = conn.sends ∧
      ∀ {turn w t}, Does (serve cfg l p) (conn', ctx) turn w t →
        Does (clientTurn cfg l) (conn, ctx) turn w (receiveEvents p ++ t) := by
  obtain ⟨e, hcheck⟩ := Option.isSome_iff_exists.mp (p.checkHeader_isSome.mpr hoffending)
  have hbytes := hdelivers.bytes
  rw [Framed.wire, List.append_assoc] at hbytes
  obtain ⟨script, hclean, hbytes', hturn⟩ := turn_header cfg l hstop hstate hdelivers.clean hbytes
  refine ⟨{ conn with script := script }, ⟨hclean, hbytes', hdelivers.after⟩, rfl, ?_⟩
  intro turn w t hdoes
  rw [receiveEvents, if_pos hoffending]
  refine hturn ?_
  rw [serve, hcheck] at hdoes
  rw [handleHeader, hcheck]
  exact hdoes

/-- In front of any other packet, one turn reads it whole. -/
theorem turn_wellFormed (hstop : ctx.choices.stop = none) (hstate : l.state ≠ .closing) {rest : List UInt8}
    (hdelivers : Delivers conn (p.wire ++ rest)) (hfine : ¬ p.Offending) :
    ∃ conn', Delivers conn' rest ∧ conn'.sends = conn.sends ∧
      ∀ {turn w t}, Does (serve cfg l p) (conn', ctx) turn w t →
        Does (clientTurn cfg l) (conn, ctx) turn w (receiveEvents p ++ t) := by
  have hcheck : checkHeader p.header = none := by
    rw [← p.checkHeader_isSome, Bool.not_eq_true, Option.isSome_eq_false_iff, Option.isNone_iff_eq_none] at hfine
    exact hfine
  have hbytes := hdelivers.bytes
  rw [Framed.wire, List.append_assoc] at hbytes
  obtain ⟨script, hclean, hbytes', hturn⟩ := turn_framed cfg l hstop hstate hdelivers.clean hcheck p.size hbytes
  refine ⟨{ conn with script := script }, ⟨hclean, hbytes', hdelivers.after⟩, rfl, ?_⟩
  intro turn w t hdoes
  rw [receiveEvents, if_neg hfine, List.append_assoc]
  refine hturn ?_
  rw [serve, hcheck] at hdoes
  exact hdoes

/-- So a packet that is not both offending and followed by payload leaves the stream in frame. -/
theorem turn_inFrame (hstop : ctx.choices.stop = none) (hstate : l.state ≠ .closing) {rest : List UInt8}
    (hdelivers : Delivers conn (p.wire ++ rest)) (hbare : p.Offending → p.payload = []) :
    ∃ conn', Delivers conn' rest ∧ conn'.sends = conn.sends ∧
      ∀ {turn w t}, Does (serve cfg l p) (conn', ctx) turn w t →
        Does (clientTurn cfg l) (conn, ctx) turn w (receiveEvents p ++ t) := by
  by_cases hoffending : p.Offending
  · obtain ⟨conn', hdelivers', hrest⟩ := turn_offending hstop hstate hdelivers hoffending
    rw [hbare hoffending, List.nil_append] at hdelivers'
    exact ⟨conn', hdelivers', hrest⟩
  · exact turn_wellFormed hstop hstate hdelivers hoffending

/-- The events of a rejection: the decision, one PKT_ERROR, and the mark against the device if there is
one. -/
def rejectionEvents (dev : Option Nat) (h : PlHeader) (e : PlError) (sent : Bool) : List (Event ServerSig) :=
  ⟨.decided h (.rejected e), ()⟩ :: ⟨.writeN (errorPacket h.deviceId e), sent⟩ ::
    dev.elim [] fun p => [⟨.device p .addBad, ()⟩]

theorem strikeOut_events {h : PlHeader} {e : PlError} {t : List (Event ServerSig)} {x : Turn}
    (hpath : (strikeOut cfg l h e).Path t x) :
    (∃ sent, t = rejectionEvents l.dev h e sent) ∧ x = struck l := by
  refine ⟨?_, (strikeOut_path hpath).choose_spec.2.2⟩
  obtain ⟨_, t₁, ht, hreject⟩ := path_ask_iff.mp hpath
  obtain ⟨t₂, l', t₃, ht₁, hmark, hret⟩ := Proc.path_bind_iff.mp hreject
  obtain ⟨rfl, -⟩ := Proc.path_ret_iff.mp hret
  rw [reject, sendError_eq] at hmark
  obtain ⟨sent, t₄, ht₂, hbad⟩ := path_ask_iff.mp hmark
  obtain ⟨t₅, _, t₆, ht₄, hbad, hret'⟩ := Proc.path_bind_iff.mp hbad
  obtain ⟨rfl, -⟩ := Proc.path_ret_iff.mp hret'
  refine ⟨sent, ?_⟩
  rw [ht, ht₁, ht₂, ht₄, List.append_nil, List.append_nil, rejectionEvents]
  cases hdev : l.dev with
  | none =>
      rw [hdev] at hbad
      rw [(Proc.path_ret_iff.mp hbad).1]
      rfl
  | some q =>
      rw [hdev] at hbad
      obtain ⟨_, t₇, ht₅, hnil⟩ := Proc.path_op_iff.mp hbad
      rw [ht₅, (Proc.path_ret_iff.mp hnil).1]
      rfl

/-- Whatever is answered, the worker decides about a packet by the packet's own verdict and then acts. -/
theorem serve_path {t : List (Event ServerSig)} {x : Turn} (hpath : (serve cfg l p).Path t x) :
    ∃ post, t = ⟨.decided p.header p.verdict, ()⟩ :: post ∧ ∀ ev ∈ post, Acts l.dev ev.op := by
  rw [serve] at hpath
  cases hcheck : checkHeader p.header with
  | some e =>
      rw [hcheck] at hpath
      obtain ⟨post, rfl, hpost, -⟩ := strikeOut_path hpath
      rw [Framed.verdict, hcheck]
      exact ⟨post, rfl, fun ev hev => (hpost ev hev).plain.acts⟩
  | none =>
      rw [hcheck] at hpath
      simp only at hpath
      rw [checkPayload_received cfg l p.size (Framed.length_le hcheck)] at hpath
      rw [Framed.verdict, hcheck]
      simp only
      by_cases hsum : plChecksum p.payload ≠ p.header.checksum
      · rw [if_pos hsum] at hpath ⊢
        obtain ⟨post, rfl, hpost, -⟩ := strikeOut_path hpath
        exact ⟨post, rfl, fun ev hev => (hpost ev hev).plain.acts⟩
      · rw [if_neg hsum] at hpath ⊢
        obtain ⟨_, post, rfl, hdispatch⟩ := path_ask_iff.mp hpath
        exact ⟨post, rfl, ((dispatch_acts cfg _ _).path hdispatch).1⟩

/-- A packet can end a connection in four ways; end of file is not one of them. -/
theorem serve_exit {t : List (Event ServerSig)} {why : ExitReason} (hpath : (serve cfg l p).Path t (.inr why)) :
    why ∈ [ExitReason.strikes, .noHello, .helloAckFailed, .crash] := by
  rw [serve] at hpath
  cases hcheck : checkHeader p.header with
  | some e =>
      rw [hcheck] at hpath
      exact Decides.exit_mem (Or.inl ⟨e, hpath⟩)
  | none =>
      rw [hcheck] at hpath
      exact (checkPayload_path hpath).exit_mem

theorem Delivers.step {dev : Option Nat} {o : ServerOp} (ho : Handles dev o) {w : World} {bs : List UInt8}
    (hdelivers : Delivers w.1 bs) : Delivers (serverHandler o w).2.1 bs := by
  obtain ⟨conn, ctx⟩ := w
  obtain ⟨hclean, hbytes, hafter⟩ := hdelivers
  cases o with
  | loadRunning => exact ho.elim
  | readN n => exact ho.elim
  | writeFile path bytes =>
      simp only [serverHandler]
      split <;> exact ⟨hclean, hbytes, hafter⟩
  | _ => exact ⟨hclean, hbytes, hafter⟩

/-- One turn in front of a packet that keeps the stream in frame. -/
theorem turn_serve (hstop : ctx.choices.stop = none) (hstate : l.state ≠ .closing) {rest : List UInt8}
    (hdelivers : Delivers conn (p.wire ++ rest)) (hbare : p.Offending → p.payload = []) :
    ∃ turn conn' ctx' t, Does (clientTurn cfg l) (conn, ctx) turn (conn', ctx') (receiveEvents p ++ t) ∧
      (serve cfg l p).Path t turn ∧ Delivers conn' rest ∧ ctx'.choices.stop = none := by
  obtain ⟨conn₁, hdelivers₁, -, hturn⟩ := @turn_inFrame cfg l p conn ctx hstop hstate rest hdelivers hbare
  obtain ⟨turn, ⟨conn', ctx'⟩, t, hdoes⟩ : ∃ turn v t, Does (serve cfg l p) (conn₁, ctx) turn v t :=
    ⟨_, _, _, rfl⟩
  refine ⟨turn, conn', ctx', t, hturn hdoes, hdoes.path, ?_, ?_⟩
  · exact hdoes.keeps (J := fun w => Delivers w.1 rest) (serve_handles cfg l p)
      (fun o w ho hw => hw.step ho) hdelivers₁
  · have hstop₁ : (conn₁, ctx).2.choices.stop = none := hstop
    exact stop_runs hstop₁ hdoes

end Packet

/-! ### What is never read -/

/-- Of the bytes at the end of the stream some have been read. -/
def Touched (rest : List UInt8) (w : World) : Prop := (bytesOf w.1.script).length < rest.length

theorem not_touched {rest : List UInt8} {w : World} (hunread : rest <:+ bytesOf w.1.script) : ¬ Touched rest w :=
  Nat.not_lt.mpr hunread.length_le

theorem readN_bytesOf (after : Afterwards) (n : Nat) (got : List UInt8) (script : List Recv) :
    (bytesOf (readN after n got script).2).length ≤ (bytesOf script).length := by
  fun_induction readN after n got script with
  | case5 got rest hmore ih => exact ih
  | case9 got rest hmore b bs hfits ih =>
      rw [bytesOf, List.length_append]
      exact ih.trans (Nat.le_add_left _ _)
  | case10 got rest hmore b bs hlong =>
      rw [bytesOf_unread, bytesOf, List.length_append, List.length_append, List.length_drop]
      omega
  | _ => exact Nat.le_refl _

theorem Touched.step {rest : List UInt8} (o : ServerOp) {w : World} (htouched : Touched rest w) :
    Touched rest (serverHandler o w).2 := by
  obtain ⟨conn, ctx⟩ := w
  cases o with
  | readN n => exact (readN_bytesOf conn.after n [] conn.script).trans_lt htouched
  | writeFile path bytes =>
      simp only [serverHandler]
      split <;> exact htouched
  | _ => exact htouched

theorem Touched.runs {rest : List UInt8} {α : Type} {p : ServerProc α} {w w' : World} {value : α}
    {t : List (Event ServerSig)} (htouched : Touched rest w) (hruns : Does p w value w' t) : Touched rest w' :=
  hruns.invariant (fun o _ => Touched.step o) htouched

/-- A turn in front of bytes reads some of them. -/
theorem turn_touches {cfg : Config} {l : Locals} {conn : Conn} {ctx : ServerCtx} {rest : List UInt8}
    (hstop : ctx.choices.stop = none) (hstate : l.state ≠ .closing) (hrest : rest ≠ [])
    (hdelivers : Delivers conn rest) {x : Turn} {w : World} {t : List (Event ServerSig)}
    (hturn : Does (clientTurn cfg l) (conn, ctx) x w t) : Touched rest w := by
  rcases hread : readN conn.after PL_HDR_SIZE [] conn.script with ⟨r, left⟩
  have hpos := List.length_pos_iff.mpr hrest
  have hless : Touched rest ({ conn with script := left }, ctx) := by
    show (bytesOf left).length < rest.length
    by_cases henough : PL_HDR_SIZE ≤ rest.length
    · obtain ⟨left', hread', -, hbytes⟩ := readN_clean conn.after PL_HDR_SIZE hdelivers.clean [] (Nat.zero_le _)
        (by rw [hdelivers.bytes]; exact henough)
      cases hread.symm.trans hread'
      rw [hbytes, hdelivers.bytes, List.length_drop]
      exact Nat.sub_lt hpos (by decide)
    · have hshort := readN_short conn.after hdelivers.clean [] [] (n := PL_HDR_SIZE)
        (by rw [hdelivers.bytes]; simpa using henough)
      rw [List.append_nil, hread, hdelivers.after, hdelivers.bytes, readN, ite_self] at hshort
      cases hshort
      exact hpos
  have hafter := turn_read cfg l hstop hstate hread
    (Proc.runs_exec serverHandler (afterRead cfg l r) ({ conn with script := left }, ctx))
  obtain ⟨-, rfl, -⟩ := Outcome.mk.inj (hturn.symm.trans hafter)
  exact hless.runs (Proc.runs_exec serverHandler (afterRead cfg l r) ({ conn with script := left }, ctx))

/-! ### Whole runs -/

theorem packetsOf_append (t t' : List (Event ServerSig)) : packetsOf (t ++ t') = packetsOf t ++ packetsOf t' :=
  List.filterMap_append

theorem packetsOf_acts {dev : Option Nat} {t : List (Event ServerSig)} (hacts : ∀ ev ∈ t, Acts dev ev.op) :
    packetsOf t = [] := by
  refine List.filterMap_eq_nil_iff.mpr ?_
  rintro ⟨o, ans⟩ hev
  cases o <;> first | rfl | exact (hacts _ hev).elim

theorem packetsOf_receive (p : Framed) : packetsOf (receiveEvents p) = [] := by
  rw [receiveEvents, payloadEvents]
  split_ifs <;> rfl

/-- A turn in front of a packet decodes this packet. -/
theorem packetsOf_serve {cfg : Config} {l : Locals} {p : Framed} {t : List (Event ServerSig)} {x : Turn}
    (hpath : (serve cfg l p).Path t x) : packetsOf (receiveEvents p ++ t) = [p.decoded] := by
  obtain ⟨post, rfl, hpost⟩ := serve_path hpath
  rw [packetsOf_append, packetsOf_receive, List.nil_append]
  show p.decoded :: packetsOf post = _
  rw [packetsOf_acts hpost]

/-- The worker stands between two packets: it has decoded those before, and those behind are to come, followed by
`rest`. -/
def InFrame (packets : List Framed) (rest : List UInt8) (w : World) (t : List (Event ServerSig)) : Prop :=
  ∃ reached todo, packets = reached ++ todo ∧ packetsOf t = reached.map Framed.decoded ∧
    Delivers w.1 (streamOf todo ++ rest)

theorem InFrame.snoc {packets : List Framed} {rest : List UInt8} {reached todo : List Framed} {p : Framed}
    (hpackets : packets = reached ++ p :: todo) {t t' : List (Event ServerSig)}
    (hreached : packetsOf t = reached.map Framed.decoded) (hp : packetsOf t' = [p.decoded]) {w : World}
    (htodo : Delivers w.1 (streamOf todo ++ rest)) : InFrame packets rest w (t ++ t') := by
  refine ⟨reached ++ [p], todo, ?_, ?_, htodo⟩
  · rw [hpackets, List.append_assoc]
    rfl
  · rw [packetsOf_append, hreached, hp, List.map_append]
    rfl

section Stream

variable {cfg : Config} {packets : List Framed} {rest : List UInt8}

/-- After a turn the worker stands between two packets again, or it leaves; if it leaves because the peer
closed the connection, it has decoded every packet. -/
def StaysInFrame (packets : List Framed) (rest : List UInt8) (w : World) (t : List (Event ServerSig)) : Turn → Prop
  | .inl _ => InFrame packets rest w t
  | .inr why => why = .closed → packetsOf t = packets.map Framed.decoded

theorem InFrame.turn (hbare : ∀ p ∈ packets, p.Offending → p.payload = []) {l : Locals} {w w₁ : World}
    {t₀ t : List (Event ServerSig)} (hframe : InFrame packets rest w t₀) (hstop : w.2.choices.stop = none)
    {turn : Turn} (hturn : Does (clientTurn cfg l) w turn w₁ t) :
    Touched rest w₁ ∨ StaysInFrame packets rest w₁ (t₀ ++ t) turn := by
  obtain ⟨reached, todo, hpackets, hreached, hdelivers⟩ := hframe
  obtain ⟨conn, ctx⟩ := w
  by_cases hstate : l.state = .closing
  · have hleaves : Does (clientTurn cfg l) (conn, ctx) _ _ _ := turn_closing hstop hstate
    rw [Does, Proc.Runs, hleaves] at hturn
    cases hturn
    refine Or.inr ?_
    rintro ⟨⟩
  cases todo with
  | nil =>
      by_cases hrest : rest = []
      · subst hrest
        have hleaves := turn_end cfg l hstop hstate hdelivers.clean hdelivers.bytes hdelivers.after
        rw [Does, Proc.Runs, hleaves] at hturn
        cases hturn
        refine Or.inr fun _ => ?_
        rw [packetsOf_append, hreached, hpackets, List.append_nil]
        exact List.append_nil _
      · exact Or.inl (turn_touches hstop hstate hrest hdelivers hturn)
  | cons p todo =>
      refine Or.inr ?_
      have hp : p ∈ packets := by
        rw [hpackets]
        exact List.mem_append_right _ List.mem_cons_self
      rw [streamOf_cons, List.append_assoc] at hdelivers
      obtain ⟨turn, conn', ctx', t', hserves, hpath, hdelivers', -⟩ :=
        @turn_serve cfg l p conn ctx hstop hstate _ hdelivers (hbare p hp)
      rw [Does, Proc.Runs, hserves] at hturn
      cases hturn
      cases turn with
      | inl l₁ => exact InFrame.snoc hpackets hreached (packetsOf_serve hpath) hdelivers'
      | inr why =>
          rintro rfl
          exact absurd (serve_exit hpath) (by decide)

/-- What holds of a worker on such a stream at each of its turns. -/
def Aligned (packets : List Framed) (rest : List UInt8) : WorkerPc → World → List (Event ServerSig) → Prop
  | .leave why, _, t => why = .closed → packetsOf t = packets.map Framed.decoded
  | _, w, t => InFrame packets rest w t ∧ w.2.choices.stop = none

theorem comes_aligned (hbare : ∀ p ∈ packets, p.Offending → p.payload = []) {payload : PayloadBuf}
    {conn : Conn} {ctx : ServerCtx} (hstop : ctx.choices.stop = none)
    (hdelivers : Delivers conn (streamOf packets ++ rest)) {pc : WorkerPc} {w : World} {t : List (Event ServerSig)}
    (hcomes : Loop.Comes (clientWorker cfg) serverHandler (.enter payload) (conn, ctx) t pc w) :
    Touched rest w ∨ Aligned packets rest pc w t := by
  have hstart : Aligned packets rest (.enter payload) (conn, ctx) [] :=
    ⟨⟨[], packets, rfl, rfl, hdelivers⟩, hstop⟩
  refine Loop.Comes.invariant (J := fun pc w t => Touched rest w ∨ Aligned packets rest pc w t) ?_
    (Or.inr hstart) hcomes
  rintro pc w t₀ pc₁ w₁ t (htouched | hJ) hturn
  · exact Or.inl (htouched.runs hturn)
  cases pc with
  | enter payload' =>
      cases hturn
      obtain ⟨⟨reached, todo, hpackets, hreached, htodo⟩, hstop₀⟩ := hJ
      refine Or.inr ⟨⟨reached, todo, hpackets, ?_, htodo⟩, hstop₀⟩
      rw [packetsOf_append, hreached]
      exact List.append_nil _
  | running l =>
      obtain ⟨turn, w₂, t₂, hdoes⟩ : ∃ turn v t, Does (clientTurn cfg l) w turn v t := ⟨_, _, _, rfl⟩
      have hstays := hJ.1.turn hbare hJ.2 hdoes
      have hstop₂ := stop_runs hJ.2 hdoes
      have hrun := does_running hdoes
      rw [Does, Proc.Runs, hturn] at hrun
      cases turn with
      | inl l₁ =>
          cases hrun
          exact hstays.imp_right fun hframe => ⟨hframe, hstop₂⟩
      | inr why => cases why <;> cases hrun <;> exact hstays
  | leave why => cases hturn

/-- A worker that leaves such a stream because it is closed has decoded every packet by its own verdict. -/
theorem closed_decoded (hbare : ∀ p ∈ packets, p.Offending → p.payload = []) {payload : PayloadBuf}
    {conn : Conn} {ctx : ServerCtx} (hstop : ctx.choices.stop = none)
    (hdelivers : Delivers conn (streamOf packets ++ rest)) {w : World} {t : List (Event ServerSig)}
    (hends : Loop.Ends (clientWorker cfg) serverHandler (.enter payload) (conn, ctx) ⟨.closed, w, t⟩)
    (hunread : rest <:+ bytesOf w.1.script) : packetsOf t = packets.map Framed.decoded := by
  obtain ⟨pc, w', t₁, t₂, hcomes, hlast, rfl⟩ := hends.comes
  have haligned := (comes_aligned hbare hstop hdelivers hcomes).resolve_left fun htouched =>
    not_touched hunread (htouched.runs hlast)
  cases pc with
  | enter payload' => cases hlast
  | running l =>
      obtain ⟨turn, w₂, t₃, hdoes⟩ : ∃ turn v t, Does (clientTurn cfg l) w' turn v t := ⟨_, _, _, rfl⟩
      have hrun := does_running hdoes
      rw [Does, Proc.Runs, hlast] at hrun
      cases turn with
      | inl l₁ => cases hrun
      | inr why => cases why <;> cases hrun
  | leave why =>
      obtain ⟨hplain, hwhy⟩ := (leave_plain cfg why).path (Proc.Runs.path hlast)
      cases hwhy
      rw [packetsOf_append, haligned rfl, packetsOf_acts fun ev hev => (hplain ev hev).acts, List.append_nil]

/-- The worker's turn in front of `p` and `rest` rejects `p` with one PKT_ERROR and one strike, and the
stream is in front of `rest` then if and only if `p` has no payload. -/
def RejectsOnce (cfg : Config) (l : Locals) (w : World) (p : Framed) (rest : List UInt8) : Prop :=
  ∃ e sent w', checkHeader p.header = some e ∧ Does (clientTurn cfg l) w (struck { l with idleTicks := 0 }) w'
      (receiveEvents p ++ rejectionEvents l.dev p.header e sent) ∧
    (Delivers w'.1 rest ↔ p.payload = [])

theorem offending_rejectsOnce {l : Locals} {w : World} (hstop : w.2.choices.stop = none)
    (hstate : l.state ≠ .closing) {p : Framed} (hoffending : p.Offending) {rest : List UInt8}
    (hdelivers : Delivers w.1 (p.wire ++ rest)) : RejectsOnce cfg l w p rest := by
  obtain ⟨conn, ctx⟩ := w
  obtain ⟨e, hcheck⟩ := Option.isSome_iff_exists.mp (p.checkHeader_isSome.mpr hoffending)
  obtain ⟨conn', hdelivers', -, hturn⟩ :=
    @turn_offending cfg l p conn ctx hstop hstate rest hdelivers hoffending
  obtain ⟨turn, w', t, hdoes⟩ : ∃ turn v t, Does (serve cfg l p) (conn', ctx) turn v t := ⟨_, _, _, rfl⟩
  have hleft : Delivers w'.1 (p.payload ++ rest) :=
    hdoes.keeps (J := fun w => Delivers w.1 (p.payload ++ rest)) (serve_handles cfg l p)
      (fun o w ho hw => hw.step ho) hdelivers'
  have hpath := hdoes.path
  rw [serve, hcheck] at hpath
  obtain ⟨⟨sent, ht⟩, hstruck⟩ := strikeOut_events hpath
  have hserves := hturn hdoes
  rw [hstruck, ht] at hserves
  refine ⟨e, sent, w', hcheck, hserves, ?_⟩
  constructor
  · intro hrest
    exact List.append_left_eq_self.mp (hleft.bytes.symm.trans hrest.bytes)
  · intro hnone
    rwa [hnone, List.nil_append] at hleft

end Stream

end PulseLink
