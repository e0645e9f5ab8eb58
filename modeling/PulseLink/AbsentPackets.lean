import PulseLink.BaseAlike
import PulseLink.Framing

/-! A stream with offending packets against the same stream without them. The two workers differ in their
strikes, in `packets_bad` and in what they have sent, and in nothing that decides about a packet; so until
three strikes accumulate they exchange the same with their peers. Bytes behind them that the first worker never
reads may be anything. -/

namespace PulseLink

open Bytes

/-! ### Exchanges -/

/-- A packet decoded, and what the worker stored and sent because of it. -/
structure Exchange where
  header : PlHeader
  verdict : Verdict
  outputs : List Output
  deriving DecidableEq, Repr

/-- The outputs before the first packet of a run, and the exchanges. -/
def exchange : List (Event ServerSig) → List Output × List Exchange
  | [] => ([], [])
  | e :: t =>
      match packetOf e with
      | some (h, v) => ([], ⟨h, v, (exchange t).1⟩ :: (exchange t).2)
      | none => ((outputOf e).toList ++ (exchange t).1, (exchange t).2)

/-- The exchanges of a run, in order. -/
def exchangesOf (t : List (Event ServerSig)) : List Exchange := (exchange t).2

theorem exchange_undecided {t : List (Event ServerSig)} (hnone : packetsOf t = []) (t' : List (Event ServerSig)) :
    exchange (t ++ t') = (outputs t ++ (exchange t').1, (exchange t').2) := by
  induction t with
  | nil => rfl
  | cons e t ih =>
      have hall := List.filterMap_eq_nil_iff.mp hnone
      have hrest : packetsOf t = [] :=
        List.filterMap_eq_nil_iff.mpr fun e he => hall e (List.mem_cons_of_mem _ he)
      rw [List.cons_append, exchange, hall e List.mem_cons_self, ih hrest]
      simp only [outputs, List.filterMap_cons]
      cases outputOf e <;> rfl

theorem outputs_receive (p : Framed) : outputs (receiveEvents p) = [] := by
  rw [receiveEvents, payloadEvents]
  split_ifs <;> rfl

/-- No output before the first packet of either part, so none before that of the whole. -/
theorem exchange_append_fst {t t' : List (Event ServerSig)} (ht : (exchange t).1 = []) (ht' : (exchange t').1 = []) :
    (exchange (t ++ t')).1 = [] := by
  induction t with
  | nil => exact ht'
  | cons e t ih =>
      rw [List.cons_append]
      rw [exchange] at ht ⊢
      cases hpacket : packetOf e with
      | some p => rfl
      | none =>
          rw [hpacket] at ht
          obtain ⟨hfirst, hrest⟩ := List.append_eq_nil_iff.mp ht
          exact List.append_eq_nil_iff.mpr ⟨hfirst, ih hrest⟩

theorem exchange_receives {t : List (Event ServerSig)} (ht : ∀ e ∈ t, Receives e.op) : (exchange t).1 = [] := by
  induction t with
  | nil => rfl
  | cons e t ih =>
      have he := ht e List.mem_cons_self
      obtain ⟨o, ans⟩ := e
      cases o with
      | loadRunning => exact ih fun e' he' => ht e' (List.mem_cons_of_mem _ he')
      | readN n => exact ih fun e' he' => ht e' (List.mem_cons_of_mem _ he')
      | _ => exact he.elim

/-- A worker stores and sends nothing unprompted. -/
theorem turn_unprompted {cfg : Config} {pc : WorkerPc} {x : WorkerPc ⊕ ExitReason} {t : List (Event ServerSig)}
    (hpath : (clientWorker cfg pc).Path t x) : (exchange t).1 = [] := by
  cases pc with
  | enter payload =>
      obtain ⟨_, t', rfl, hret⟩ := path_ask_iff.mp hpath
      rw [(Proc.path_ret_iff.mp hret).1]
      rfl
  | leave why =>
      obtain ⟨_, t₁, rfl, hpost⟩ := path_ask_iff.mp hpath
      obtain ⟨_, t₂, rfl, hsub⟩ := path_ask_iff.mp hpost
      obtain ⟨_, t₃, rfl, hfree⟩ := path_ask_iff.mp hsub
      obtain ⟨_, t₄, rfl, hret⟩ := path_ask_iff.mp hfree
      rw [(Proc.path_ret_iff.mp hret).1]
      rfl
  | running l =>
      obtain ⟨t₁, turn, t₂, rfl, hturn, hret⟩ := Proc.path_bind_iff.mp hpath
      obtain ⟨rfl, -⟩ := Proc.path_ret_iff.mp hret
      rw [List.append_nil]
      obtain ⟨reads, post, rfl, hreads, ⟨rfl, -⟩ | ⟨-, payload, h, hdecides⟩⟩ := clientTurn_path hturn
      · exact exchange_append_fst (exchange_receives hreads) rfl
      · refine exchange_append_fst (exchange_receives hreads) ?_
        rcases hdecides with ⟨e, hstrike⟩ | ⟨payload', t', rfl, -⟩
        · obtain ⟨post', rfl, -⟩ := strikeOut_path hstrike
          rfl
        · rfl

theorem path_unprompted {cfg : Config} {pc : WorkerPc} {t : List (Event ServerSig)} {why : ExitReason}
    (hpath : Loop.Path (clientWorker cfg) pc t why) : (exchange t).1 = [] := by
  induction hpath with
  | stop hturn => exact turn_unprompted hturn
  | turn hturn _ ih => exact exchange_append_fst (turn_unprompted hturn) ih

/-- What a turn in front of a packet adds, if no output comes before the next packet. -/
theorem exchange_serve {dev : Option Nat} (p : Framed) {post t : List (Event ServerSig)}
    (hpost : ∀ ev ∈ post, Acts dev ev.op) (ht : (exchange t).1 = []) :
    exchange (receiveEvents p ++ ⟨.decided p.header p.verdict, ()⟩ :: post ++ t) =
      ([], ⟨p.header, p.verdict, outputs post⟩ :: exchangesOf t) := by
  have hfirst : exchange (⟨.decided p.header p.verdict, ()⟩ :: (post ++ t)) =
      ([], ⟨p.header, p.verdict, (exchange (post ++ t)).1⟩ :: (exchange (post ++ t)).2) := rfl
  rw [List.append_assoc, exchange_undecided (packetsOf_receive p), outputs_receive, List.cons_append, hfirst,
    exchange_undecided (packetsOf_acts hpost), ht]
  simp only [List.append_nil]
  rfl

/-! ### One stream -/

section OneStream

variable {cfg : Config} {l : Locals} {conn : Conn} {ctx : ServerCtx}

/-- A turn that leaves the loop ends the worker, which shows nothing more. -/
theorem ends_of_exit {w w₁ : World} {why : ExitReason} {t : List (Event ServerSig)}
    (hturn : Does (clientTurn cfg l) w (.inr why) w₁ t) :
    ∃ w' t', Loop.Ends (clientWorker cfg) serverHandler (.running l) w ⟨why, w', t ++ t'⟩ ∧
      exchange t' = ([], []) := by
  have hrun := does_running hturn
  by_cases hcrash : why = .crash
  · subst hcrash
    refine ⟨w₁, [], ?_, rfl⟩
    rw [List.append_nil]
    exact .stop hrun
  · have hnext : WorkerPc.next (.inr why) = .inl (.leave why) := by
      cases why <;> first | rfl | exact absurd rfl hcrash
    rw [hnext] at hrun
    exact ⟨_, _, .turn hrun (.stop rfl), rfl⟩

theorem ends_closing (hstop : ctx.choices.stop = none) (hstate : l.state = .closing) :
    ∃ w t, Loop.Ends (clientWorker cfg) serverHandler (.running l) (conn, ctx) ⟨.closing, w, t⟩ ∧
      exchange t = ([], []) := by
  obtain ⟨w, t, hends, hexchange⟩ := ends_of_exit (turn_closing hstop hstate)
  exact ⟨w, _, hends, by rw [exchange_undecided rfl, hexchange]; rfl⟩

theorem ends_closed (hstop : ctx.choices.stop = none) (hstate : l.state ≠ .closing)
    (hdelivers : Delivers conn []) :
    ∃ w t, Loop.Ends (clientWorker cfg) serverHandler (.running l) (conn, ctx) ⟨.closed, w, t⟩ ∧
      exchange t = ([], []) := by
  obtain ⟨w, t, hends, hexchange⟩ :=
    ends_of_exit (turn_end cfg l hstop hstate hdelivers.clean hdelivers.bytes hdelivers.after)
  exact ⟨w, _, hends, by rw [exchange_undecided rfl, hexchange]; rfl⟩

/-- After a turn about a packet, whatever it leads to, the worker ends, and the packet is its first exchange. -/
theorem ends_after {p : Framed} {x : Turn} {w w₁ : World} {dev : Option Nat} {post : List (Event ServerSig)}
    (hpost : ∀ ev ∈ post, Acts dev ev.op) (hstop : w₁.2.choices.stop = none)
    (hturn : Does (clientTurn cfg l) w x w₁ (receiveEvents p ++ ⟨.decided p.header p.verdict, ()⟩ :: post)) :
    ∃ why v t, Loop.Ends (clientWorker cfg) serverHandler (.running l) w ⟨why, v, t⟩ ∧
      ∃ xs, exchange t = ([], ⟨p.header, p.verdict, outputs post⟩ :: xs) := by
  cases x with
  | inl l₁ =>
      obtain ⟨⟨why, v, t⟩, hends⟩ := worker_ends cfg (.running l₁) hstop
      exact ⟨why, v, _, .turn (does_running hturn) hends, _, exchange_serve p hpost (path_unprompted hends.path)⟩
  | inr why =>
      obtain ⟨v, t, hends, hexchange⟩ := ends_of_exit hturn
      exact ⟨why, v, _, hends, _, exchange_serve p hpost (by rw [hexchange])⟩

/-- A worker in front of nothing but `rest` reads of it before it ends. -/
theorem ends_touched {rest : List UInt8} (hstop : ctx.choices.stop = none) (hstate : l.state ≠ .closing)
    (hrest : rest ≠ []) (hdelivers : Delivers conn rest) {out : Outcome ServerSig World ExitReason}
    (hends : Loop.Ends (clientWorker cfg) serverHandler (.running l) (conn, ctx) out) :
    Touched rest out.world := by
  obtain ⟨x, w, t, hturn⟩ : ∃ x v t, Does (clientTurn cfg l) (conn, ctx) x v t := ⟨_, _, _, rfl⟩
  have htouched := turn_touches hstop hstate hrest hdelivers hturn
  have hrun := does_running hturn
  cases hends with
  | stop hlast =>
      obtain ⟨-, rfl, -⟩ := Outcome.mk.inj (hrun.symm.trans hlast)
      exact htouched
  | turn hfirst hlater =>
      obtain ⟨-, rfl, -⟩ := Outcome.mk.inj (hrun.symm.trans hfirst)
      exact hlater.invariant (fun o _ => Touched.step o) htouched

/-- The worker leaves `rest` unread. -/
def LeavesUnread (cfg : Config) (rest : List UInt8) (l : Locals) (w : World) : Prop :=
  ∀ out, Loop.Ends (clientWorker cfg) serverHandler (.running l) w out → rest <:+ bytesOf out.world.1.script

theorem LeavesUnread.turn {rest : List UInt8} {l₁ : Locals} {w w₁ : World} {t : List (Event ServerSig)}
    (hunread : LeavesUnread cfg rest l w) (hturn : Does (clientTurn cfg l) w (.inl l₁) w₁ t) :
    LeavesUnread cfg rest l₁ w₁ :=
  fun out hends => hunread ⟨out.value, out.world, t ++ out.trace⟩ (.turn (does_running hturn) hends)

end OneStream

/-! ### Tables up to `packets_bad` -/

def Device.unbad (d : Device) : Device := { d with packetsBad := 0 }

/-- The table with every `packets_bad` cleared. -/
def DeviceTable.unbad (t : DeviceTable) : DeviceTable := { t with heap := t.heap.map Device.unbad }

namespace DeviceTable

variable (t : DeviceTable)

theorem unbad_lookup (id : UInt32) : t.unbad.lookup id = t.lookup id := by
  have hid : t.unbad.idAt = t.idAt := by
    funext p
    rw [idAt, idAt, unbad, List.getElem?_map, Option.map_map]
    rfl
  exact lookup_congr (show t.unbad.buckets = t.buckets from rfl) hid id

theorem unbad_insert (id sessionId : UInt32) (now : Int) :
    (t.insert id sessionId now).unbad = t.unbad.insert id sessionId now := by
  simp only [unbad, insert, List.map_append, List.length_map]
  rfl

variable {t} in
/-- Tables with the same chains agree up to `packets_bad` if their devices do. -/
theorem unbad_eq {t' : DeviceTable} (hbuckets : t.buckets = t'.buckets) (hcount : t.deviceCount = t'.deviceCount)
    (hheap : ∀ q : Nat, (t.heap[q]?).map Device.unbad = (t'.heap[q]?).map Device.unbad) : t.unbad = t'.unbad := by
  have hmap : t.heap.map Device.unbad = t'.heap.map Device.unbad := by
    refine List.ext_getElem? fun q => ?_
    rw [List.getElem?_map, List.getElem?_map]
    exact hheap q
  rw [unbad, unbad, hmap, hbuckets, hcount]

theorem unbad_atomic (p : Nat) (a : DevAtomic) : (t.atomic p a).unbad = (t.unbad.atomic p a).unbad := by
  have happly : ∀ d, (a.apply d).unbad = (a.apply d.unbad).unbad := by
    intro d
    cases a <;> rfl
  refine unbad_eq rfl rfl fun q => ?_
  rw [atomic_heap, atomic_heap, unbad, List.getElem?_map]
  cases t.heap[q]? with
  | none => split_ifs <;> rfl
  | some d =>
      split_ifs
      · exact congrArg some (happly d)
      · rfl

theorem unbad_addBad (p : Nat) : (t.atomic p .addBad).unbad = t.unbad := by
  refine unbad_eq rfl rfl fun q => ?_
  rw [atomic_heap]
  cases t.heap[q]? with
  | none => split_ifs <;> rfl
  | some d => split_ifs <;> rfl

theorem unbad_dtInsertLocked (ok : Bool) (id sessionId : UInt32) (now : Int) :
    dtInsertLocked ok id sessionId now t.unbad =
      ((dtInsertLocked ok id sessionId now t).1, (dtInsertLocked ok id sessionId now t).2.unbad) := by
  rw [dtInsertLocked, dtInsertLocked, unbad_lookup]
  cases t.lookup id with
  | some p => rfl
  | none =>
      simp only
      split_ifs
      · rw [unbad_insert]
        simp only [unbad, List.length_map]
      · rfl

end DeviceTable

/-! ### Two connections -/

/-- Two connections with their streams, in servers that differ in `packets_bad` only; no send fails. -/
structure Kin (bs bs' : List UInt8) (w w' : World) : Prop where
  delivers : Delivers w.1 bs
  delivers' : Delivers w'.1 bs'
  sends : ∀ s ∈ w.1.sends, s ≠ .failed
  sends' : ∀ s ∈ w'.1.sends, s ≠ .failed
  running : w.2.choices.stop = none
  devices : w'.2.devices.unbad = w.2.devices.unbad
  others : { w'.2 with devices := w.2.devices } = w.2

theorem Kin.running' {bs bs' : List UInt8} {w w' : World} (hkin : Kin bs bs' w w') :
    w'.2.choices.stop = none := by
  have hsame := congrArg (fun c : ServerCtx => c.choices.stop) hkin.others
  exact hsame.trans hkin.running

/-- In kindred worlds an operation gets the same answer. -/
theorem Kin.step {dev : Option Nat} {bs bs' : List UInt8} {o : ServerOp} {w w' : World} (ho : Handles dev o)
    (hkin : Kin bs bs' w w') :
    (serverHandler o w').1 = (serverHandler o w).1 ∧ Kin bs bs' (serverHandler o w).2 (serverHandler o w').2 := by
  suffices hanswer : (serverHandler o w').1 = (serverHandler o w).1 ∧
      (serverHandler o w').2.2.devices.unbad = (serverHandler o w).2.2.devices.unbad ∧
      { (serverHandler o w').2.2 with devices := (serverHandler o w).2.2.devices } =
        (serverHandler o w).2.2 from
    ⟨hanswer.1, hkin.delivers.step ho, hkin.delivers'.step ho, noFail_step hkin.sends, noFail_step hkin.sends',
      stop_step o hkin.running, hanswer.2.1, hanswer.2.2⟩
  obtain ⟨conn, ctx⟩ := w
  obtain ⟨conn', ctx'⟩ := w'
  obtain ⟨-, -, hsends, hsends', -, hdevices, hothers⟩ := hkin
  obtain ⟨d, rfl⟩ : ∃ d, ctx = { ctx' with devices := d } := ⟨ctx.devices, hothers.symm⟩
  have hd : ctx'.devices.unbad = d.unbad := hdevices
  cases o with
  | loadRunning => exact ho.elim
  | readN n => exact ho.elim
  | writeN bs =>
      obtain ⟨_, hwrite, -⟩ := writeN_ok (Nat.zero_le bs.length) hsends
      obtain ⟨_, hwrite', -⟩ := writeN_ok (Nat.zero_le bs.length) hsends'
      refine ⟨?_, hd, rfl⟩
      simp only [serverHandler, hwrite, hwrite']
  | find id =>
      refine ⟨?_, hd, rfl⟩
      show ctx'.devices.lookup id = d.lookup id
      rw [← DeviceTable.unbad_lookup, hd, DeviceTable.unbad_lookup]
  | insert id sessionId =>
      have hsame := DeviceTable.unbad_dtInsertLocked ctx'.devices (draw true ctx'.choices.callocs).1 id sessionId
        (draw 0 ctx'.choices.times).1
      rw [hd, DeviceTable.unbad_dtInsertLocked] at hsame
      exact ⟨(Prod.mk.inj hsame).1.symm, (Prod.mk.inj hsame).2.symm, rfl⟩
  | device p a =>
      refine ⟨rfl, ?_, rfl⟩
      show (ctx'.devices.atomic p a).unbad = (d.atomic p a).unbad
      rw [DeviceTable.unbad_atomic, hd, ← DeviceTable.unbad_atomic]
  | writeFile path bytes =>
      simp only [serverHandler]
      split <;> exact ⟨rfl, hd, rfl⟩
  | _ => exact ⟨rfl, hd, rfl⟩

/-! ### Two workers -/

/-- The second worker has the same locals with no more strikes. -/
def Behind (l l' : Locals) : Prop :=
  ∃ strikes ≤ l.strikes, ∃ ticks, l' = { l with strikes := strikes, idleTicks := ticks }

/-- What the two make of the same packet: the same, unless the first worker is out of strikes. -/
def Lags (x x' : Turn) : Prop :=
  match x with
  | .inl l => l.state = .closing ∨ ∃ l', x' = .inl l' ∧ Behind l l'
  | .inr why => why = .strikes ∨ x' = .inr why

section Twins

variable {cfg : Config} {l l' : Locals}

theorem twin_reject (hbehind : Behind l l') (h : PlHeader) (e : PlError) :
    Proc.Twin (fun r r' => r = { l with strikes := l.strikes + 1 } ∧ r' = { l' with strikes := l'.strikes + 1 })
      (reject cfg l h e) (reject cfg l' h e) := by
  obtain ⟨strikes, hle, ticks, rfl⟩ := hbehind
  exact .same _ fun _ => .same _ fun _ => .ret ⟨rfl, rfl⟩

theorem Behind.strike (hbehind : Behind l l') :
    Behind { l with strikes := l.strikes + 1 } { l' with strikes := l'.strikes + 1 } := by
  obtain ⟨strikes, hle, ticks, rfl⟩ := hbehind
  exact ⟨strikes + 1, Nat.succ_le_succ hle, ticks, rfl⟩

theorem Behind.state_eq (hbehind : Behind l l') : l'.state = l.state := by
  obtain ⟨strikes, hle, ticks, rfl⟩ := hbehind
  rfl

theorem Behind.strikes_le (hbehind : Behind l l') : l'.strikes ≤ l.strikes := by
  obtain ⟨strikes, hle, ticks, rfl⟩ := hbehind
  exact hle

/-- One strike more: either the first worker is out of strikes or neither is. -/
theorem Behind.lags (hbehind : Behind l l') {x x' : Turn} (hx : ∀ y, Lags x y) :
    Lags (if l.strikes + 1 ≥ MAX_STRIKES then x else .inl { l with strikes := l.strikes + 1 })
      (if l'.strikes + 1 ≥ MAX_STRIKES then x' else .inl { l' with strikes := l'.strikes + 1 }) := by
  have hle := hbehind.strikes_le
  by_cases hout : l.strikes + 1 ≥ MAX_STRIKES
  · rw [if_pos hout]
    exact hx _
  · have hin : ¬ l'.strikes + 1 ≥ MAX_STRIKES := by omega
    rw [if_neg hout, if_neg hin]
    exact Or.inr ⟨_, rfl, hbehind.strike⟩

theorem twin_strikeOut (hbehind : Behind l l') (h : PlHeader) (e : PlError) :
    Proc.Twin Lags (strikeOut cfg l h e) (strikeOut cfg l' h e) := by
  refine .op fun _ => (twin_reject hbehind h e).bind ?_
  rintro r r' ⟨rfl, rfl⟩
  exact .ret (hbehind.lags fun _ => Or.inl rfl)

theorem twin_strikeClose (hbehind : Behind l l') (h : PlHeader) (e : PlError) :
    Proc.Twin Lags (strikeClose cfg l h e) (strikeClose cfg l' h e) := by
  refine (twin_reject hbehind h e).bind ?_
  rintro r r' ⟨rfl, rfl⟩
  refine .ret ?_
  rw [apply_ite Sum.inl, apply_ite Sum.inl]
  exact hbehind.lags fun _ => Or.inl rfl

theorem twin_handleHello (hbehind : Behind l l') (h : PlHeader) :
    Proc.Twin Lags (handleHello cfg l h) (handleHello cfg l' h) := by
  obtain ⟨strikes, hle, ticks, rfl⟩ := hbehind
  rw [handleHello, handleHello]
  by_cases htype : h.type ≠ PktType.hello.code
  · rw [if_pos htype, if_pos htype]
    exact .same _ fun _ => .ret (Or.inr rfl)
  · rw [if_neg htype, if_neg htype]
    refine .same _ fun sid => .same _ fun dev => .same _ fun ok => ?_
    cases ok with
    | true => exact .ret (Or.inr ⟨_, rfl, 0, le_rfl, ticks, rfl⟩)
    | false => exact .ret (Or.inr rfl)

theorem twin_handleSensor (hbehind : Behind l l') (h : PlHeader) :
    Proc.Twin Lags (handleSensor cfg l h) (handleSensor cfg l' h) := by
  obtain ⟨strikes, hle, ticks, rfl⟩ := hbehind
  rw [handleSensor, handleSensor]
  cases hdev : l.dev with
  | none => exact .ret (Or.inr rfl)
  | some p =>
      refine .same _ fun _ => ?_
      simp only
      split_ifs
      · exact .same _ fun _ => .ret (Or.inr ⟨_, rfl, 0, le_rfl, ticks, rfl⟩)
      · exact .ret (Or.inr ⟨_, rfl, 0, le_rfl, ticks, rfl⟩)

theorem twin_handleFrame (hbehind : Behind l l') (h : PlHeader) :
    Proc.Twin Lags (handleFrame cfg l h) (handleFrame cfg l' h) := by
  obtain ⟨strikes, hle, ticks, rfl⟩ := hbehind
  refine .op fun alloc => .op fun _ => ?_
  simp only
  generalize frameAsmFeed alloc l.fa (l.payload.bytes.take h.payloadLen.toNat) = r
  obtain ⟨result, fa⟩ := r
  cases result with
  | malformed => exact twin_strikeClose (l := { l with fa := fa }) ⟨strikes, hle, ticks, rfl⟩ h .tooBig
  | more => exact .ret (Or.inr ⟨_, rfl, 0, le_rfl, ticks, rfl⟩)
  | complete img =>
      exact .same (saveFrame cfg h img) fun _ => .ret (Or.inr ⟨_, rfl, 0, le_rfl, ticks, rfl⟩)

/-- The two workers ask the same about an accepted packet. -/
theorem twin_dispatch (hbehind : Behind l l') (h : PlHeader) :
    Proc.Twin Lags (dispatch cfg l h) (dispatch cfg l' h) := by
  have hstate := hbehind.state_eq
  rw [dispatch, dispatch, hstate]
  split_ifs
  · exact twin_handleHello hbehind h
  · exact twin_handleSensor hbehind h
  · exact twin_handleFrame hbehind h
  · exact .ret (Or.inr ⟨l', rfl, hbehind⟩)
  · exact twin_strikeClose hbehind h .badType

theorem twin_checkPayload (hbehind : Behind l l') (h : PlHeader) :
    Proc.Twin Lags (checkPayload cfg l h) (checkPayload cfg l' h) := by
  have hpayload : l'.payload = l.payload := by
    obtain ⟨strikes, hle, ticks, rfl⟩ := hbehind
    rfl
  rw [checkPayload, checkPayload, hpayload]
  split_ifs
  · exact twin_strikeOut hbehind h .badChecksum
  · exact .op fun _ => twin_dispatch hbehind h

theorem twin_serve (hbehind : Behind l l') (p : Framed) :
    Proc.Twin Lags (serve cfg l p) (serve cfg l' p) := by
  obtain ⟨strikes, hle, ticks, rfl⟩ := hbehind
  rw [serve, serve]
  cases checkHeader p.header with
  | some e => exact twin_strikeOut (l := { l with idleTicks := 0 }) ⟨strikes, hle, 0, rfl⟩ p.header e
  | none => exact twin_checkPayload (l := l.received p.payload) ⟨strikes, hle, 0, rfl⟩ p.header

end Twins

/-! ### Both streams -/

/-- The operations of a rejection. -/
def Complains : ServerOp → Prop
  | .writeN _ => True
  | .device _ .addBad => True
  | .decided _ _ => True
  | _ => False

theorem strikeOut_complains (cfg : Config) (l : Locals) (h : PlHeader) (e : PlError) :
    (strikeOut cfg l h e).Uses Complains := by
  refine within_ask trivial fun _ => Proc.Uses.bind ?_ fun _ => trivial
  rw [reject, sendError_eq]
  refine within_ask trivial fun _ => Proc.Uses.bind ?_ fun _ => trivial
  cases l.dev with
  | none => trivial
  | some p => exact ⟨trivial, fun _ => trivial⟩

/-- A rejection on the first connection leaves the worlds kindred. -/
theorem Kin.complain {bs bs' : List UInt8} {o : ServerOp} {w w' : World} (ho : Complains o)
    (hkin : Kin bs bs' w w') : Kin bs bs' (serverHandler o w).2 w' := by
  obtain ⟨conn, ctx⟩ := w
  cases o with
  | writeN bs =>
      have hdelivers : Delivers (serverHandler (.writeN bs) (conn, ctx)).2.1 _ :=
        hkin.delivers.step (show Handles none (.writeN bs) from trivial)
      exact { hkin with delivers := hdelivers, sends := noFail_step hkin.sends }
  | device p a =>
      cases a with
      | addBad =>
          refine { hkin with devices := ?_, others := ?_ }
          · exact hkin.devices.trans (ctx.devices.unbad_addBad p).symm
          · exact congrArg (fun c : ServerCtx => { c with devices := ctx.devices.atomic p .addBad }) hkin.others
      | _ => exact ho.elim
  | decided h v => exact hkin
  | _ => exact ho.elim

/-- Without the exchanges about offending packets, the first run shows no more than the second; and it shows
as much and ends as the second does, unless three strikes accumulated. -/
def AsIfAbsent (why : ExitReason) (t : List (Event ServerSig)) (why' : ExitReason)
    (t' : List (Event ServerSig)) : Prop :=
  (exchangesOf t).filter (fun x => (checkHeader x.header).isNone) <+: exchangesOf t' ∧
    (why ≠ .strikes → why ≠ .closing →
      why' = why ∧ (exchangesOf t).filter (fun x => (checkHeader x.header).isNone) = exchangesOf t')

theorem asIfAbsent_out {why why' : ExitReason} {t t' : List (Event ServerSig)}
    (hout : why = .strikes ∨ why = .closing)
    (hinitial : (exchangesOf t).filter (fun x => (checkHeader x.header).isNone) <+: exchangesOf t') :
    AsIfAbsent why t why' t' := by
  refine ⟨hinitial, fun hstrikes hclosing => ?_⟩
  rcases hout with rfl | rfl
  · exact absurd rfl hstrikes
  · exact absurd rfl hclosing

section TwoStreams

variable {cfg : Config} {l l' : Locals} {w w' : World} {p : Framed} {rest rest' : List UInt8}

/-- Both workers in front of the same well-formed packet. -/
theorem turns_wellFormed (hbehind : Behind l l') (hstate : l.state ≠ .closing) (hfine : ¬ p.Offending)
    (hkin : Kin (p.wire ++ rest) (p.wire ++ rest') w w') :
    ∃ x x' w₁ w₁' t, Does (clientTurn cfg l) w x w₁ (receiveEvents p ++ t) ∧
      Does (clientTurn cfg l') w' x' w₁' (receiveEvents p ++ t) ∧ (serve cfg l p).Path t x ∧
      Lags x x' ∧ Kin rest rest' w₁ w₁' := by
  obtain ⟨conn, ctx⟩ := w
  obtain ⟨conn', ctx'⟩ := w'
  have hstate' : l'.state ≠ .closing := hbehind.state_eq.trans_ne hstate
  obtain ⟨conn₁, hdelivers, hsends, hturn⟩ :=
    @turn_wellFormed cfg l p conn ctx hkin.running hstate rest hkin.delivers hfine
  obtain ⟨conn₁', hdelivers', hsends', hturn'⟩ :=
    @turn_wellFormed cfg l' p conn' ctx' hkin.running' hstate' rest' hkin.delivers' hfine
  have hkin₁ : Kin rest rest' (conn₁, ctx) (conn₁', ctx') :=
    { hkin with
      delivers := hdelivers
      delivers' := hdelivers'
      sends := by rw [hsends]; exact hkin.sends
      sends' := by rw [hsends']; exact hkin.sends' }
  obtain ⟨x, w₁, t, hdoes⟩ : ∃ x v t, Does (serve cfg l p) (conn₁, ctx) x v t := ⟨_, _, _, rfl⟩
  obtain ⟨x', w₁', hdoes', hlags, hkin'⟩ := (twin_serve hbehind p).runs
    (fun o _ _ ho hkin => hkin.step ho) (serve_handles cfg l p) hkin₁ hdoes
  exact ⟨x, x', w₁, w₁', t, hturn hdoes, hturn' hdoes', hdoes.path, hlags, hkin'⟩

/-- The first worker in front of an offending packet. -/
theorem turn_absent (hstate : l.state ≠ .closing) (hoffending : p.Offending) (hnone : p.payload = [])
    {bs' : List UInt8} (hkin : Kin (p.wire ++ rest) bs' w w') :
    ∃ w₁ t, Does (clientTurn cfg l) w (struck { l with idleTicks := 0 }) w₁ (receiveEvents p ++ t) ∧
      (serve cfg l p).Path t (struck { l with idleTicks := 0 }) ∧ Kin rest bs' w₁ w' := by
  obtain ⟨conn, ctx⟩ := w
  obtain ⟨e, hcheck⟩ := Option.isSome_iff_exists.mp (p.checkHeader_isSome.mpr hoffending)
  obtain ⟨conn₁, hdelivers, hsends, hturn⟩ :=
    @turn_offending cfg l p conn ctx hkin.running hstate rest hkin.delivers hoffending
  rw [hnone, List.nil_append] at hdelivers
  have hkin₁ : Kin rest bs' (conn₁, ctx) w' :=
    { hkin with
      delivers := hdelivers
      sends := by rw [hsends]; exact hkin.sends }
  obtain ⟨x, w₁, t, hdoes⟩ : ∃ x v t, Does (serve cfg l p) (conn₁, ctx) x v t := ⟨_, _, _, rfl⟩
  have hpath : (serve cfg l p).Path t x := hdoes.path
  have hserve : serve cfg l p = strikeOut cfg { l with idleTicks := 0 } p.header e := by
    rw [serve, hcheck]
  obtain rfl : x = struck { l with idleTicks := 0 } := by
    rw [hserve] at hpath
    exact (strikeOut_events hpath).2
  refine ⟨w₁, t, hturn hdoes, hpath, ?_⟩
  rw [hserve] at hdoes
  exact hdoes.keeps (J := fun w => Kin rest bs' w w') (strikeOut_complains cfg _ _ e)
    (fun o _ ho hkin => hkin.complain ho) hkin₁

/-- Both workers end, and the first shows the second's exchanges as far as it gets. -/
def Compared (cfg : Config) (l : Locals) (w : World) (l' : Locals) (w' : World) : Prop :=
  ∃ why v t why' v' t', Loop.Ends (clientWorker cfg) serverHandler (.running l) w ⟨why, v, t⟩ ∧
    Loop.Ends (clientWorker cfg) serverHandler (.running l') w' ⟨why', v', t'⟩ ∧ AsIfAbsent why t why' t'

theorem compared_closing (hstop : w.2.choices.stop = none) (hstate : l.state = .closing)
    (hstop' : w'.2.choices.stop = none) : Compared cfg l w l' w' := by
  obtain ⟨conn, ctx⟩ := w
  obtain ⟨v, t, hends, hexchange⟩ := ends_closing hstop hstate
  obtain ⟨⟨why', v', t'⟩, hends'⟩ := worker_ends cfg (.running l') hstop'
  refine ⟨.closing, v, t, why', v', t', hends, hends', ?_⟩
  refine asIfAbsent_out (Or.inr rfl) ?_
  rw [exchangesOf, hexchange]
  exact List.nil_prefix

theorem compared_closed (hbehind : Behind l l') (hstate : l.state ≠ .closing) (hkin : Kin [] [] w w') :
    Compared cfg l w l' w' := by
  obtain ⟨conn, ctx⟩ := w
  obtain ⟨conn', ctx'⟩ := w'
  have hstate' : l'.state ≠ .closing := hbehind.state_eq.trans_ne hstate
  obtain ⟨v, t, hends, hexchange⟩ := ends_closed hkin.running hstate hkin.delivers
  obtain ⟨v', t', hends', hexchange'⟩ := ends_closed hkin.running' hstate' hkin.delivers'
  refine ⟨.closed, v, t, .closed, v', t', hends, hends', ?_⟩
  rw [AsIfAbsent, exchangesOf, exchangesOf, hexchange, hexchange']
  exact ⟨List.nil_prefix, fun _ _ => ⟨rfl, rfl⟩⟩

/-- An offending packet on the first stream only. -/
theorem compared_offending {dev : Option Nat} {w₁ : World} {post : List (Event ServerSig)}
    (hpost : ∀ ev ∈ post, Acts dev ev.op) (hoffending : p.Offending)
    (hturn : Does (clientTurn cfg l) w (struck { l with idleTicks := 0 }) w₁
      (receiveEvents p ++ ⟨.decided p.header p.verdict, ()⟩ :: post))
    (hnext : ∀ l₁, struck { l with idleTicks := 0 } = .inl l₁ → Compared cfg l₁ w₁ l' w')
    (hstop' : w'.2.choices.stop = none) : Compared cfg l w l' w' := by
  have hdrop : ∀ outs xs, List.filter (fun x : Exchange => (checkHeader x.header).isNone)
      (⟨p.header, p.verdict, outs⟩ :: xs) = xs.filter fun x => (checkHeader x.header).isNone := by
    intro outs xs
    obtain ⟨e, hcheck⟩ := Option.isSome_iff_exists.mp (p.checkHeader_isSome.mpr hoffending)
    exact List.filter_cons_of_neg (by rw [hcheck]; exact Bool.false_ne_true)
  rw [struck] at hturn hnext
  split_ifs at hturn hnext with hout
  · obtain ⟨v, t, hends, hexchange⟩ := ends_of_exit hturn
    obtain ⟨⟨why', v', t'⟩, hends'⟩ := worker_ends cfg (.running l') hstop'
    have hserve := exchange_serve p hpost (show (exchange t).1 = [] by rw [hexchange])
    refine ⟨.strikes, v, _, why', v', t', hends, hends', ?_⟩
    refine asIfAbsent_out (Or.inl rfl) ?_
    rw [exchangesOf, hserve, hdrop, exchangesOf, hexchange]
    exact List.nil_prefix
  · obtain ⟨why, v, t, why', v', t', hends, hends', habsent⟩ := hnext _ rfl
    refine ⟨why, v, _, why', v', t', .turn (does_running hturn) hends, hends', ?_⟩
    rw [AsIfAbsent, exchangesOf, exchange_serve p hpost (path_unprompted hends.path), hdrop]
    exact habsent

/-- A well-formed packet on both streams. -/
theorem compared_wellFormed {dev : Option Nat} {x x' : Turn} {w₁ w₁' : World} {post : List (Event ServerSig)}
    (hpost : ∀ ev ∈ post, Acts dev ev.op) (hfine : ¬ p.Offending) (hlags : Lags x x')
    (hstop : w₁.2.choices.stop = none) (hstop' : w₁'.2.choices.stop = none)
    (hturn : Does (clientTurn cfg l) w x w₁ (receiveEvents p ++ ⟨.decided p.header p.verdict, ()⟩ :: post))
    (hturn' : Does (clientTurn cfg l') w' x' w₁' (receiveEvents p ++ ⟨.decided p.header p.verdict, ()⟩ :: post))
    (hnext : ∀ l₁ l₁', x = .inl l₁ → Behind l₁ l₁' → Compared cfg l₁ w₁ l₁' w₁') : Compared cfg l w l' w' := by
  have hkeep : ∀ outs xs, List.filter (fun x : Exchange => (checkHeader x.header).isNone)
      (⟨p.header, p.verdict, outs⟩ :: xs) =
        ⟨p.header, p.verdict, outs⟩ :: xs.filter fun x => (checkHeader x.header).isNone := by
    intro outs xs
    rw [← p.checkHeader_isSome, Bool.not_eq_true, Option.isSome_eq_false_iff] at hfine
    exact List.filter_cons_of_pos hfine
  -- the first worker is out of strikes: its exchanges end with this packet
  have hgone : ∀ {why v t}, Loop.Ends (clientWorker cfg) serverHandler (.running l) w ⟨why, v, t⟩ →
      exchange t = ([], [⟨p.header, p.verdict, outputs post⟩]) → why = .strikes ∨ why = .closing →
      Compared cfg l w l' w' := by
    intro why v t hends hexchange hwhy
    obtain ⟨why', v', t', hends', xs, hexchange'⟩ := ends_after hpost hstop' hturn'
    refine ⟨why, v, t, why', v', t', hends, hends', ?_⟩
    refine asIfAbsent_out hwhy ?_
    rw [exchangesOf, hexchange, hkeep, exchangesOf, hexchange']
    exact List.cons_prefix_cons.mpr ⟨rfl, List.nil_prefix⟩
  cases x with
  | inl l₁ =>
      rcases hlags with hstate | ⟨l₁', rfl, hbehind⟩
      · obtain ⟨conn₁, ctx₁⟩ := w₁
        obtain ⟨v, t, hends, hexchange⟩ := ends_closing hstop hstate
        refine hgone (.turn (does_running hturn) hends) ?_ (Or.inr rfl)
        rw [exchange_serve p hpost (by rw [hexchange]), exchangesOf, hexchange]
      · obtain ⟨why, v, t, why', v', t', hends, hends', hinitial, hsame⟩ := hnext l₁ l₁' rfl hbehind
        refine ⟨why, v, _, why', v', _, .turn (does_running hturn) hends, .turn (does_running hturn') hends', ?_⟩
        rw [AsIfAbsent, exchangesOf, exchangesOf, exchange_serve p hpost (path_unprompted hends.path),
          exchange_serve p hpost (path_unprompted hends'.path), hkeep]
        refine ⟨List.cons_prefix_cons.mpr ⟨rfl, hinitial⟩, fun hstrikes hclosing => ?_⟩
        obtain ⟨hwhy, hxs⟩ := hsame hstrikes hclosing
        exact ⟨hwhy, congrArg _ hxs⟩
  | inr why =>
      obtain ⟨v, t, hends, hexchange⟩ := ends_of_exit hturn
      have hserve := exchange_serve p hpost (show (exchange t).1 = [] by rw [hexchange])
      rw [exchangesOf, hexchange] at hserve
      rcases hlags with rfl | rfl
      · exact hgone hends hserve (Or.inl rfl)
      · obtain ⟨v', t', hends', hexchange'⟩ := ends_of_exit hturn'
        have hserve' := exchange_serve p hpost (show (exchange t').1 = [] by rw [hexchange'])
        rw [exchangesOf, hexchange'] at hserve'
        refine ⟨why, v, _, why, v', _, hends, hends', ?_⟩
        rw [AsIfAbsent, exchangesOf, exchangesOf, hserve, hserve', hkeep]
        exact ⟨List.prefix_rfl, fun _ _ => ⟨rfl, rfl⟩⟩

/-- The packets of a stream that are not offending. -/
def wellFormedOf (packets : List Framed) : List Framed := packets.filter fun p => ¬ p.Offending

/-- The two streams, from any point of them on, each followed by `rest`, which the first worker leaves unread. -/
theorem compared_streams {packets : List Framed} (hbare : ∀ p ∈ packets, p.Offending → p.payload = [])
    (hbehind : Behind l l') (hkin : Kin (streamOf packets ++ rest) (streamOf (wellFormedOf packets) ++ rest) w w')
    (hunread : LeavesUnread cfg rest l w) : Compared cfg l w l' w' := by
  induction packets generalizing l l' w w' with
  | nil =>
      by_cases hstate : l.state = .closing
      · exact compared_closing hkin.running hstate hkin.running'
      by_cases hrest : rest = []
      · subst hrest
        exact compared_closed hbehind hstate hkin
      · obtain ⟨out, hends⟩ := worker_ends cfg (.running l) hkin.running
        exact absurd (ends_touched hkin.running hstate hrest hkin.delivers hends) (not_touched (hunread out hends))
  | cons p packets ih =>
      by_cases hstate : l.state = .closing
      · exact compared_closing hkin.running hstate hkin.running'
      have hbare' : ∀ q ∈ packets, q.Offending → q.payload = [] :=
        fun q hq => hbare q (List.mem_cons_of_mem _ hq)
      rw [streamOf_cons, List.append_assoc] at hkin
      by_cases hoffending : p.Offending
      · have hsame : wellFormedOf (p :: packets) = wellFormedOf packets := by simp [wellFormedOf, hoffending]
        rw [hsame] at hkin
        obtain ⟨w₁, t, hturn, hpath, hkin₁⟩ :=
          @turn_absent cfg l w w' p _ hstate hoffending (hbare p List.mem_cons_self hoffending) _ hkin
        obtain ⟨post, rfl, hpost⟩ := serve_path hpath
        refine compared_offending hpost hoffending hturn ?_ hkin.running'
        intro l₁ hl₁
        rw [hl₁] at hturn
        refine ih hbare' ?_ hkin₁ (hunread.turn hturn)
        rw [struck_eq_inl hl₁]
        obtain ⟨strikes, hle, ticks, rfl⟩ := hbehind
        exact ⟨strikes, Nat.le_succ_of_le hle, ticks, rfl⟩
      · have hcons : wellFormedOf (p :: packets) = p :: wellFormedOf packets := by simp [wellFormedOf, hoffending]
        rw [hcons, streamOf_cons, List.append_assoc] at hkin
        obtain ⟨x, x', w₁, w₁', t, hturn, hturn', hpath, hlags, hkin₁⟩ :=
          @turns_wellFormed cfg l l' w w' p _ _ hbehind hstate hoffending hkin
        obtain ⟨post, rfl, hpost⟩ := serve_path hpath
        refine compared_wellFormed hpost hoffending hlags hkin₁.running hkin₁.running' hturn hturn' ?_
        rintro l₁ l₁' rfl hbehind₁
        exact ih hbare' hbehind₁ hkin₁ (hunread.turn hturn)

end TwoStreams

/-- Wherever the worker comes to the top of its loop, it has decoded the packets before by their own
verdicts and stands in front of the next one; if that one is offending, it is rejected once. -/
def AtBoundary (cfg : Config) (packets : List Framed) (rest : List UInt8) (l : Locals) (w : World)
    (t : List (Event ServerSig)) : Prop :=
  ∃ reached todo, packets = reached ++ todo ∧ packetsOf t = reached.map Framed.decoded ∧
    Delivers w.1 (streamOf todo ++ rest) ∧
    ∀ p todo', todo = p :: todo' → p.Offending → l.state ≠ .closing → RejectsOnce cfg l w p (streamOf todo' ++ rest)

/-- **Framing survives rejected headers that announce no payload.** Whenever a worker is in front of an
offending packet it sends one PKT_ERROR and counts one strike, and the next header it reads is that of the
next packet if and only if the offending one has no payload. As long as it reads only packets of which the
offending ones have none, and whatever follows them in the stream, it is in front of a packet at every turn,
decodes each by its own bytes, and exchanges with its peer what it would exchange if the offending packets were
absent, until three strikes accumulate. -/
theorem framing_kept (cfg : Config) (payload : PayloadBuf) {packets : List Framed} (rest : List UInt8)
    (hbare : ∀ p ∈ packets, p.Offending → p.payload = []) {conn : Conn} {ctx : ServerCtx}
    (hstop : ctx.choices.stop = none) (hdelivers : Delivers conn (streamOf packets ++ rest)) :
    (∀ l w p later, w.2.choices.stop = none → l.state ≠ .closing → p.Offending →
      Delivers w.1 (p.wire ++ later) → RejectsOnce cfg l w p later) ∧
    (∀ l w t, Loop.Comes (clientWorker cfg) serverHandler (.enter payload) (conn, ctx) t (.running l) w →
      rest <:+ bytesOf w.1.script → AtBoundary cfg packets rest l w t) ∧
    ∃ why w t, Loop.Ends (clientWorker cfg) serverHandler (.enter payload) (conn, ctx) ⟨why, w, t⟩ ∧
      (rest <:+ bytesOf w.1.script →
        (why = .closed → packetsOf t = packets.map Framed.decoded) ∧
        ∀ conn', Delivers conn' (streamOf (wellFormedOf packets) ++ rest) → (∀ s ∈ conn.sends, s ≠ .failed) →
          (∀ s ∈ conn'.sends, s ≠ .failed) →
          ∃ why' w' t', Loop.Ends (clientWorker cfg) serverHandler (.enter payload) (conn', ctx)
            ⟨why', w', t'⟩ ∧ AsIfAbsent why t why' t') := by
  refine ⟨fun l w p later hstop hstate hoffending => offending_rejectsOnce hstop hstate hoffending, ?_, ?_⟩
  · intro l w t hcomes hunread
    obtain ⟨⟨reached, todo, hpackets, hreached, htodo⟩, hstop'⟩ :=
      (comes_aligned hbare hstop hdelivers hcomes).resolve_left (not_touched hunread)
    refine ⟨reached, todo, hpackets, hreached, htodo, ?_⟩
    rintro p todo' rfl hoffending hstate
    rw [streamOf_cons, List.append_assoc] at htodo
    exact offending_rejectsOnce hstop' hstate hoffending htodo
  · have hrunning : (conn, { ctx with activeWorkers := ctx.activeWorkers + 1 }).2.choices.stop = none := hstop
    obtain ⟨⟨why, w, t⟩, hends⟩ := worker_ends cfg (.running (.init payload)) hrunning
    have hstart : Loop.Ends (clientWorker cfg) serverHandler (.enter payload) (conn, ctx)
        ⟨why, w, [⟨.activeAdd, ()⟩] ++ t⟩ := .turn rfl hends
    refine ⟨why, w, _, hstart, fun hunread => ⟨?_, ?_⟩⟩
    · rintro rfl
      exact closed_decoded hbare hstop hdelivers hstart hunread
    · intro conn' hdelivers' hsends hsends'
      have hkin : Kin (streamOf packets ++ rest) (streamOf (wellFormedOf packets) ++ rest)
          (conn, { ctx with activeWorkers := ctx.activeWorkers + 1 })
          (conn', { ctx with activeWorkers := ctx.activeWorkers + 1 }) :=
        ⟨hdelivers, hdelivers', hsends, hsends', hstop, rfl, rfl⟩
      have hbehind : Behind (.init payload) (.init payload) := ⟨0, le_rfl, 0, rfl⟩
      have hleaves : LeavesUnread cfg rest (.init payload)
          (conn, { ctx with activeWorkers := ctx.activeWorkers + 1 }) := by
        intro out hout
        rw [hout.unique hends]
        exact hunread
      obtain ⟨why₁, w₁, t₁, why', w', t', hends₁, hends', habsent⟩ :=
        compared_streams hbare hbehind hkin hleaves
      cases hends.unique hends₁
      exact ⟨why', w', _, .turn rfl hends', habsent⟩

/-- A packet built with its own length and checksum. -/
def Framed.built (type : PktType) (deviceId : UInt32) (payload : List UInt8) (hlen : payload.length ≤ 1100) :
    Framed where
  header := builtHeader type.code deviceId payload
  payload := payload
  magic := rfl
  size := (toNat_builtHeader_len hlen).symm

/-- A SENSOR packet of device 7 whose payload is all zero. -/
def Framed.zeros (version : UInt8) (payloadLen : UInt16) : Framed where
  header := ⟨PL_MAGIC, version, PktType.sensor.code, 7, payloadLen, 0⟩
  payload := List.replicate payloadLen.toNat 0
  magic := rfl
  size := List.length_replicate

/-- A HELLO, the given packets, and a reading. -/
def withBetween (between : List Framed) : List Framed :=
  .built .hello 7 (helloPayload 1 0) (by decide) :: between ++
    [.built .sensor 7 (sensorPayload oneReading) (by decide)]

/-- Three packets of version 9 without payload end the connection in front of one with 24 payload bytes. -/
theorem versionNine_leaves : (Loop.exec (clientWorker ⟨.little, none⟩) serverHandler 8 (.enter zeroPayload)
    (scripted (unread (streamOf (withBetween (List.replicate 3 (.zeros 9 0))) ++ (Framed.zeros 9 24).wire) []),
      freshServer)).map (fun out => (out.value, (Framed.zeros 9 24).wire.isSuffixOf (bytesOf out.world.1.script))) =
        some (.strikes, true) := by
  decide +kernel

theorem framing_kept_versionNine :
    ∃ w t why' w' t', Loop.Ends (clientWorker ⟨.little, none⟩) serverHandler (.enter zeroPayload)
        (scripted (unread (streamOf (withBetween (List.replicate 3 (.zeros 9 0))) ++ (Framed.zeros 9 24).wire) []),
          freshServer) ⟨.strikes, w, t⟩ ∧
      Loop.Ends (clientWorker ⟨.little, none⟩) serverHandler (.enter zeroPayload)
        (scripted (unread (streamOf (withBetween []) ++ (Framed.zeros 9 24).wire) []), freshServer) ⟨why', w', t'⟩ ∧
      AsIfAbsent .strikes t why' t' := by
  have hbare : ∀ p ∈ withBetween (List.replicate 3 (.zeros 9 0)), p.Offending → p.payload = [] := by
    decide +kernel
  have hstop : freshServer.choices.stop = none := rfl
  have hnone : ∀ bs, ∀ s ∈ (scripted (unread bs [])).sends, s ≠ .failed := fun _ s hs => absurd hs List.not_mem_nil
  have habsent : streamOf (wellFormedOf (withBetween (List.replicate 3 (.zeros 9 0)))) = streamOf (withBetween []) := by
    decide +kernel
  obtain ⟨why, w, t, hends, hkept⟩ := (framing_kept ⟨.little, none⟩ zeroPayload (Framed.zeros 9 24).wire hbare hstop
    (delivers_scripted _)).2.2
  obtain ⟨out, hexec, hout⟩ := Option.map_eq_some_iff.mp versionNine_leaves
  cases hends.unique (.of_exec hexec)
  obtain ⟨rfl, hunread⟩ := Prod.mk.inj hout
  obtain ⟨-, hcompared⟩ := hkept (List.isSuffixOf_iff_suffix.mp hunread)
  rw [habsent] at hcompared
  obtain ⟨why', w', t', hends', hasIf⟩ := hcompared _ (delivers_scripted _) (hnone _) (hnone _)
  exact ⟨_, _, why', w', t', hends, hends', hasIf⟩

/-- One packet of version 9 with 24 payload bytes, or one that announces 1101, draws three errors and ends
the connection; without it the reading is stored. -/
theorem framing_lost_payload :
    served (unread (streamOf (withBetween [])) []) =
      some (.closed, [.reply (helloAckPacket 7 1), .record 7 5 (-250) 4000]) ∧
    served (unread (streamOf (withBetween [.zeros 9 24])) []) =
      some (.strikes, [.reply (helloAckPacket 7 1), .reply (errorPacket 7 .badVersion),
        .reply (errorPacket 0 .badMagic), .reply (errorPacket 0 .badMagic)]) ∧
    served (unread (streamOf (withBetween [.zeros 1 1101])) []) =
      some (.strikes, [.reply (helloAckPacket 7 1), .reply (errorPacket 7 .tooBig),
        .reply (errorPacket 0 .badMagic), .reply (errorPacket 0 .badMagic)]) := by
  decide +kernel

end PulseLink
