import PulseLink.TableSink

/-! The handshake under any interleaving of workers: nothing is stored, fed or counted before a HELLO has
been accepted, a first packet of another type ends the connection, a connection is bound to a device once,
and no two connections are granted the same session while the counter has not gone round. -/

namespace PulseLink

open Bytes

/-! ### What a trace says about the handshake -/

/-- The operations that need an accepted HELLO: they reach the sink, the frame assembler or a device. -/
def Gated : ServerOp → Prop
  | .writeRecord _ => True
  | .frameAlloc => True
  | .fed _ => True
  | .device _ _ => True
  | .insert _ _ => True
  | _ => False

/-- A valid HELLO has been accepted. -/
def HelloAccepted (t : List (Event ServerSig)) : Prop :=
  ∃ h payload, ⟨.decided h (.accepted payload), ()⟩ ∈ t ∧ Passes h payload ∧ h.type = PktType.hello.code

def sessionOf : Event ServerSig → Option UInt32
  | ⟨.nextSession, sessionId⟩ => some sessionId
  | _ => none

/-- The session ids drawn, in order: one for each handshake. -/
def sessionsOf (t : List (Event ServerSig)) : List UInt32 := t.filterMap sessionOf

def grantOf : Event ServerSig → Option UInt32
  | ⟨.writeN bs, _⟩ => if bs.getD 3 0 = PktType.helloAck.code then some (rdBe32 bs PL_HDR_SIZE) else none
  | _ => none

/-- The session ids in the HELLO_ACKs sent, in order. -/
def grantsOf (t : List (Event ServerSig)) : List UInt32 := t.filterMap grantOf

def bindingOf : Event ServerSig → Option (UInt32 × Option Nat)
  | ⟨.returned id dev, _⟩ => some (id, dev)
  | _ => none

/-- The devices a connection was bound to, in order. -/
def bindingsOf (t : List (Event ServerSig)) : List (UInt32 × Option Nat) := t.filterMap bindingOf

/-- The devices touched. -/
def touchedOf : Event ServerSig → Option Nat
  | ⟨.device p _, _⟩ => some p
  | _ => none

/-- Sessions, grants, bindings and devices touched. -/
structure Marks where
  sessions : List UInt32
  grants : List UInt32
  bindings : List (UInt32 × Option Nat)
  touched : List Nat

def marksOf (t : List (Event ServerSig)) : Marks where
  sessions := sessionsOf t
  grants := grantsOf t
  bindings := bindingsOf t
  touched := t.filterMap touchedOf

/-- An event that leaves no mark. -/
def Unmarked (e : Event ServerSig) : Prop :=
  sessionOf e = none ∧ grantOf e = none ∧ bindingOf e = none ∧ touchedOf e = none

theorem marksOf_concat (t : List (Event ServerSig)) (e : Event ServerSig) :
    marksOf (t ++ [e]) =
      ⟨sessionsOf t ++ (sessionOf e).toList, grantsOf t ++ (grantOf e).toList,
        bindingsOf t ++ (bindingOf e).toList, t.filterMap touchedOf ++ (touchedOf e).toList⟩ := by
  have hone : ∀ {β : Type} (f : Event ServerSig → Option β), [e].filterMap f = (f e).toList := by
    intro β f
    cases hf : f e <;> simp [hf]
  simp only [marksOf, sessionsOf, grantsOf, bindingsOf, List.filterMap_append, hone]

theorem marksOf_unmarked (t : List (Event ServerSig)) {e : Event ServerSig} (he : Unmarked e) :
    marksOf (t ++ [e]) = marksOf t := by
  obtain ⟨hsession, hgrant, hbinding, htouched⟩ := he
  simp only [marksOf_concat, hsession, hgrant, hbinding, htouched, Option.toList_none, List.append_nil]
  rfl

theorem grantOf_writeN {bs : List UInt8} (htype : bs.getD 3 0 ≠ PktType.helloAck.code) (sent : Bool) :
    grantOf ⟨.writeN bs, sent⟩ = none := if_neg htype

theorem Aside.unmarked {e : Event ServerSig} (he : Aside e.op) : Unmarked e := by
  obtain ⟨o, ans⟩ := e
  cases o with
  | writeN bs => exact ⟨rfl, grantOf_writeN he ans, rfl, rfl⟩
  | _ => first | exact he.elim | exact ⟨rfl, rfl, rfl, rfl⟩

theorem unmarked_of_waiting {e : Event ServerSig} (he : Waiting e.op = true) : Unmarked e := by
  obtain ⟨o, ans⟩ := e
  cases o with
  | writeN bs => exact ⟨rfl, grantOf_writeN (of_decide_eq_true he) ans, rfl, rfl⟩
  | _ => first | exact ⟨rfl, rfl, rfl, rfl⟩ | cases he

theorem refusal_unmarked {h : PlHeader} {e : Event ServerSig} (he : e.op ∈ refusal h) : Unmarked e := by
  obtain ⟨o, ans⟩ := e
  simp only [refusal, List.mem_cons, List.not_mem_nil, or_false] at he
  rcases he with rfl | rfl | rfl | rfl | rfl
  · exact ⟨rfl, grantOf_writeN (errorPacket_type _ _) ans, rfl, rfl⟩
  · exact ⟨rfl, rfl, rfl, rfl⟩
  · exact ⟨rfl, rfl, rfl, rfl⟩
  · exact ⟨rfl, rfl, rfl, rfl⟩
  · exact ⟨rfl, rfl, rfl, rfl⟩

theorem HelloAccepted.concat {t : List (Event ServerSig)} (hhello : HelloAccepted t) (e : Event ServerSig) :
    HelloAccepted (t ++ [e]) := by
  obtain ⟨h, payload, hmem, hpasses, htype⟩ := hhello
  exact ⟨h, payload, List.mem_append_left _ hmem, hpasses, htype⟩

theorem HelloAccepted.headers_ne_nil {t : List (Event ServerSig)} (hhello : HelloAccepted t) :
    acceptedHeaders t ≠ [] := by
  obtain ⟨h, payload, hmem, -, -⟩ := hhello
  have hheader : h ∈ acceptedHeaders t := List.mem_filterMap.mpr ⟨_, hmem, rfl⟩
  exact List.ne_nil_of_mem hheader

/-! ### The history of each stage -/

/-- What a connection has done when it is in a stage. -/
def Recounts : Stage → List (Event ServerSig) → Prop
  | .waiting, t => acceptedHeaders t = [] ∧ marksOf t = ⟨[], [], [], []⟩
  | .greeted _, t => HelloAccepted t ∧ marksOf t = ⟨[], [], [], []⟩
  | .granted _ sessionId _, t => HelloAccepted t ∧ marksOf t = ⟨[sessionId], [], [], []⟩
  | .bound h sessionId dev, t => HelloAccepted t ∧ marksOf t = ⟨[sessionId], [], [(h.deviceId, dev)], []⟩
  | .serving dev _, t => HelloAccepted t ∧ ∃ id sessionId touched,
      marksOf t = ⟨[sessionId], [sessionId], [(id, dev)], touched⟩ ∧ ∀ p ∈ touched, dev = some p
  | .refused todo, t => (∃ h, todo <:+ refusal h) ∧ marksOf t = ⟨[], [], [], []⟩

theorem grantOf_helloAck (deviceId sessionId : UInt32) (sent : Bool) :
    grantOf ⟨.writeN (helloAckPacket deviceId sessionId), sent⟩ = some sessionId := by
  have hread : rdBe32 (helloAckPacket deviceId sessionId) PL_HDR_SIZE = sessionId := by
    rw [helloAckPacket, packetBytes, ← List.append_nil (be32 sessionId)]
    exact rdBe32_append _ [] sessionId rfl
  simp only [grantOf, hread]
  exact if_pos rfl

theorem Recounts.serve {dev : Option Nat} {due due' : Option DevAtomic} {e : Event ServerSig}
    {t : List (Event ServerSig)} (ht : Recounts (.serving dev due) t) (hserves : Serves dev due e due') :
    Recounts (.serving dev due') (t ++ [e]) := by
  obtain ⟨hhello, id, sessionId, touched, hmarks, htouched⟩ := ht
  have hkeep : Unmarked e → Recounts (.serving dev due') (t ++ [e]) := by
    intro he
    exact ⟨hhello.concat e, id, sessionId, touched, (marksOf_unmarked t he).trans hmarks, htouched⟩
  have htouch : ∀ p, sessionOf e = none → grantOf e = none → bindingOf e = none → touchedOf e = some p →
      dev = some p → Recounts (.serving dev due') (t ++ [e]) := by
    intro p hsession hgrant hbinding htouch hdev
    refine ⟨hhello.concat e, id, sessionId, touched ++ [p], ?_, ?_⟩
    · simp only [marksOf, Marks.mk.injEq] at hmarks
      rw [marksOf_concat, hmarks.1, hmarks.2.1, hmarks.2.2.1, hmarks.2.2.2, hsession, hgrant, hbinding, htouch]
      rfl
    · intro q hq
      rcases List.mem_append.mp hq with hq | hq
      · exact htouched q hq
      · rw [hdev, List.mem_singleton.mp hq]
  cases hserves with
  | aside _ he => exact hkeep he.unmarked
  | store _ hdev => exact htouch _ rfl rfl rfl rfl hdev
  | count hdev => exact htouch _ rfl rfl rfl rfl hdev
  | accept => exact hkeep ⟨rfl, rfl, rfl, rfl⟩
  | reject => exact hkeep ⟨rfl, rfl, rfl, rfl⟩
  | feed => exact hkeep ⟨rfl, rfl, rfl, rfl⟩

theorem Recounts.move {st st' : Stage} {e : Event ServerSig} {t : List (Event ServerSig)}
    (ht : Recounts st t) (hmove : Moves st e st') : Recounts st' (t ++ [e]) := by
  cases hmove with
  | wait he =>
      refine ⟨(acceptedHeaders_waiting t he).trans ht.1, ?_⟩
      exact (marksOf_unmarked t (unmarked_of_waiting he)).trans ht.2
  | @greet h payload hpasses htype =>
      refine ⟨⟨h, payload, List.mem_append_right _ (List.mem_singleton_self _), hpasses, htype⟩, ?_⟩
      exact (marksOf_unmarked t ⟨rfl, rfl, rfl, rfl⟩).trans ht.2
  | @refuse h payload hpasses htype =>
      refine ⟨⟨h, List.suffix_refl _⟩, ?_⟩
      exact (marksOf_unmarked t ⟨rfl, rfl, rfl, rfl⟩).trans ht.2
  | grant h sessionId =>
      obtain ⟨hhello, hmarks⟩ := ht
      simp only [marksOf, Marks.mk.injEq] at hmarks
      refine ⟨hhello.concat _, ?_⟩
      rw [marksOf_concat, hmarks.1, hmarks.2.1, hmarks.2.2.1, hmarks.2.2.2]
      rfl
  | find h sessionId hit =>
      exact ⟨ht.1.concat _, (marksOf_unmarked t ⟨rfl, rfl, rfl, rfl⟩).trans ht.2⟩
  | insert h sessionId r =>
      exact ⟨ht.1.concat _, (marksOf_unmarked t ⟨rfl, rfl, rfl, rfl⟩).trans ht.2⟩
  | bind h sessionId dev =>
      obtain ⟨hhello, hmarks⟩ := ht
      simp only [marksOf, Marks.mk.injEq] at hmarks
      refine ⟨hhello.concat _, ?_⟩
      rw [marksOf_concat, hmarks.1, hmarks.2.1, hmarks.2.2.1, hmarks.2.2.2]
      rfl
  | answer h sessionId dev sent =>
      obtain ⟨hhello, hmarks⟩ := ht
      simp only [marksOf, Marks.mk.injEq] at hmarks
      refine ⟨hhello.concat _, h.deviceId, sessionId, [], ?_, by simp⟩
      rw [marksOf_concat, hmarks.1, hmarks.2.1, hmarks.2.2.1, hmarks.2.2.2, grantOf_helloAck]
      rfl
  | serve hserves => exact ht.serve hserves
  | leave he =>
      obtain ⟨⟨h, htodo⟩, hmarks⟩ := ht
      refine ⟨⟨h, (List.suffix_cons _ _).trans htodo⟩, ?_⟩
      refine (marksOf_unmarked t (refusal_unmarked (h := h) ?_)).trans hmarks
      exact htodo.subset (he ▸ List.mem_cons_self)

/-- What a beginning of the dialogue says. -/
theorem recounts_of_accepts {st : Stage} {t : List (Event ServerSig)}
    (haccepts : Monitor.Accepts Stage.next .waiting t st) : Recounts st t := by
  have hstart : Recounts .waiting [] := ⟨rfl, rfl⟩
  exact haccepts.invariant (P := Recounts) (fun _ _ _ _ ht hnext => ht.move (moves_of_next hnext)) hstart

/-! ### Properties of one connection -/

/-- The sink, the frame assembler and the devices are reached only after a valid HELLO. -/
def GateKept (t : List (Event ServerSig)) : Prop :=
  ∀ t₁ e t₂, t = t₁ ++ e :: t₂ → Gated e.op → HelloAccepted t₁

theorem refusal_not_gated {h : PlHeader} {o : ServerOp} (ho : o ∈ refusal h) : ¬ Gated o := by
  simp only [refusal, List.mem_cons, List.not_mem_nil, or_false] at ho
  rcases ho with rfl | rfl | rfl | rfl | rfl <;> exact id

theorem gateKept_of_accepts {st : Stage} {t : List (Event ServerSig)}
    (haccepts : Monitor.Accepts Stage.next .waiting t st) : GateKept t := by
  rintro t₁ e t₂ rfl hgated
  obtain ⟨st₁, hfirst, hrest⟩ := haccepts.split
  have hrecounts := recounts_of_accepts hfirst
  cases hrest with
  | cons hnext _ =>
      cases moves_of_next hnext with
      | @wait e he =>
          obtain ⟨o, ans⟩ := e
          cases o <;> first | exact hgated.elim | cases he
      | greet => exact hgated.elim
      | refuse => exact hgated.elim
      | leave he =>
          obtain ⟨⟨h, htodo⟩, -⟩ := hrecounts
          exact absurd hgated (refusal_not_gated (h := h) (he ▸ htodo.subset List.mem_cons_self))
      | serve => exact hrecounts.1
      | _ => exact hrecounts.1

/-- A first accepted packet that is no HELLO: the worker replies with an error and cleans up, in that order
and with nothing in between, and when that is done it has left. -/
def RefusesOthers (t : List (Event ServerSig)) (th : Thread ServerSig WorkerPc ExitReason) : Prop :=
  ∀ (t₁ : List (Event ServerSig)) (h : PlHeader) (payload : List UInt8) (t₂ : List (Event ServerSig)),
    t = t₁ ++ ⟨.decided h (.accepted payload), ()⟩ :: t₂ → acceptedHeaders t₁ = [] →
    h.type ≠ PktType.hello.code →
    ∃ todo, t₂.map Event.op ++ todo = refusal h ∧
      (todo = [] → th = .busy (.ret (.inr .noHello)) ∨ th = .done .noHello)

theorem accepts_refused {todo : List ServerOp} {t : List (Event ServerSig)} {st : Stage}
    (haccepts : Monitor.Accepts Stage.next (.refused todo) t st) :
    ∃ todo', t.map Event.op ++ todo' = todo ∧ st = .refused todo' := by
  induction t generalizing todo with
  | nil =>
      cases haccepts
      exact ⟨todo, rfl, rfl⟩
  | cons e t ih =>
      cases haccepts with
      | cons hnext hrest =>
          cases moves_of_next hnext with
          | @leave o rest e he =>
              obtain ⟨todo', htodo, hst⟩ := ih hrest
              exact ⟨todo', by rw [List.map_cons, he, List.cons_append, htodo], hst⟩

theorem ans_nonempty (o : ServerOp) : Nonempty o.Ans := by
  cases o with
  | readN n => exact ⟨.count []⟩
  | insert id sessionId => exact ⟨.noMemory⟩
  | frameAlloc => exact ⟨FrameAlloc.ok⟩
  | _ => exact ⟨default⟩

/-- A refusal that is through has ended the worker. -/
theorem tracks_refused {th : Thread ServerSig WorkerPc ExitReason}
    (htracks : Monitor.Tracks Stage.next InStage LeftIn (.refused []) th) :
    th = .busy (.ret (.inr .noHello)) ∨ th = .done .noHello := by
  have hwhy : ∀ {why}, LeftIn why (.refused []) → why = .noHello := by
    rintro why (hst | ⟨dev, hst⟩ | ⟨hwhy, -⟩)
    · cases hst
    · cases hst
    · exact hwhy
  cases th with
  | done why =>
      rw [hwhy htracks]
      exact Or.inr rfl
  | busy p =>
      cases p with
      | op o next =>
          obtain ⟨ans⟩ := ans_nonempty o
          obtain ⟨_, hnext, -⟩ := htracks ans
          cases hnext
      | ret x =>
          cases x with
          | inr why =>
              rw [hwhy htracks]
              exact Or.inl rfl
          | inl pc =>
              exfalso
              cases pc with
              | enter payload => cases htracks
              | running l => rcases htracks with ⟨-, -, hst⟩ | ⟨-, hst⟩ <;> cases hst
              | leave why => rcases htracks with hst | ⟨dev, hst⟩ | ⟨-, h, hst⟩ <;> cases hst

theorem refusesOthers_of_accepts {st : Stage} {t : List (Event ServerSig)}
    {th : Thread ServerSig WorkerPc ExitReason} (haccepts : Monitor.Accepts Stage.next .waiting t st)
    (htracks : Monitor.Tracks Stage.next InStage LeftIn st th) : RefusesOthers t th := by
  rintro t₁ h payload t₂ rfl hnone htype
  obtain ⟨st₁, hfirst, hrest⟩ := haccepts.split
  have hrecounts := recounts_of_accepts hfirst
  cases hrest with
  | cons hnext hrest =>
      cases moves_of_next hnext with
      | wait he => cases he
      | greet _ hhello => exact absurd hhello htype
      | refuse =>
          obtain ⟨todo, htodo, rfl⟩ := accepts_refused hrest
          refine ⟨todo, htodo, ?_⟩
          rintro rfl
          exact tracks_refused htracks
      | serve => exact absurd hnone hrecounts.1.headers_ne_nil
      | leave he =>
          cases he
          obtain ⟨⟨h', htodo⟩, -⟩ := hrecounts
          have hmem := htodo.subset List.mem_cons_self
          simp [refusal] at hmem

/-- A connection is bound to a device at most once, sends at most one HELLO_ACK, and touches no device but
the one it is bound to. -/
structure BoundOnce (t : List (Event ServerSig)) : Prop where
  grants : (grantsOf t).length ≤ 1
  bindings : (bindingsOf t).length ≤ 1
  touched : ∀ p a, ⟨.device p a, ()⟩ ∈ t → ∃ id, bindingsOf t = [(id, some p)]

/-- The same of its marks, and what was granted was drawn. -/
structure Marks.Once (m : Marks) : Prop where
  grants : m.grants.length ≤ 1
  bindings : m.bindings.length ≤ 1
  touched : ∀ p ∈ m.touched, ∃ id, m.bindings = [(id, some p)]
  drawn : m.grants ⊆ m.sessions

theorem Recounts.once {st : Stage} {t : List (Event ServerSig)} (ht : Recounts st t) : (marksOf t).Once := by
  cases st with
  | waiting | greeted | granted | refused =>
      rw [ht.2]
      exact ⟨Nat.zero_le _, Nat.zero_le _, by simp, List.nil_subset _⟩
  | bound h sessionId dev =>
      rw [ht.2]
      exact ⟨Nat.zero_le _, Nat.le_refl _, by simp, List.nil_subset _⟩
  | serving dev due =>
      obtain ⟨-, id, sessionId, touched, hmarks, htouched⟩ := ht
      rw [hmarks]
      refine ⟨Nat.le_refl _, Nat.le_refl _, ?_, List.Subset.refl _⟩
      intro p hp
      exact ⟨id, by rw [htouched p hp]⟩

theorem Marks.Once.boundOnce {t : List (Event ServerSig)} (honce : (marksOf t).Once) : BoundOnce t where
  grants := honce.grants
  bindings := honce.bindings
  touched := fun p _ hmem => honce.touched p (List.mem_filterMap.mpr ⟨_, hmem, rfl⟩)

/-! ### Sessions of all connections -/

variable {ι : Type}

theorem sessionsOf_concat (log : ServerLog ι) (i : ι) (e : Event ServerSig) :
    sessionsOf (events (log ++ [(i, e)])) = sessionsOf (events log) ++ (sessionOf e).toList := by
  have hmarks := congrArg Marks.sessions (marksOf_concat (events log) e)
  rw [events_append]
  exact hmarks

/-- The counter gives out consecutive ids. -/
structure Drawn (start : UInt32) (log : ServerLog ι) (ctx : ServerCtx) : Prop where
  ids : sessionsOf (events log) =
    (List.range (sessionsOf (events log)).length).map fun k => start + UInt32.ofNat k
  next : ctx.nextSession = start + UInt32.ofNat (sessionsOf (events log)).length

theorem Drawn.step {start : UInt32} {log : ServerLog ι} {ctx : ServerCtx} (hdrawn : Drawn start log ctx) (i : ι)
    (o : ServerOp) (conn : Conn) : Drawn start (log ++ [(i, answer o conn ctx)]) (ctx.after o conn) := by
  have hkeep : sessionOf (answer o conn ctx) = none → (ctx.after o conn).nextSession = ctx.nextSession →
      Drawn start (log ++ [(i, answer o conn ctx)]) (ctx.after o conn) := by
    intro hnone hsame
    have hsessions : sessionsOf (events (log ++ [(i, answer o conn ctx)])) = sessionsOf (events log) := by
      rw [sessionsOf_concat, hnone, Option.toList_none, List.append_nil]
    refine ⟨?_, ?_⟩
    · rw [hsessions]
      exact hdrawn.ids
    · rw [hsessions, hsame]
      exact hdrawn.next
  cases o with
  | nextSession =>
      have hsessions : sessionsOf (events (log ++ [(i, answer .nextSession conn ctx)])) =
          sessionsOf (events log) ++ [ctx.nextSession] := sessionsOf_concat log i _
      refine ⟨?_, ?_⟩
      · rw [hsessions, List.length_append, List.length_singleton, List.range_succ, List.map_append, ← hdrawn.ids,
          hdrawn.next]
        rfl
      · rw [hsessions, List.length_append, List.length_singleton, UInt32.ofNat_add, ← add_assoc, ← hdrawn.next]
        rfl
  | writeFile path bytes =>
      refine hkeep rfl ?_
      simp only [ServerCtx.after, serverHandler]
      split <;> rfl
  | _ => exact hkeep rfl rfl

/-- While the counter has not gone round, the ids drawn are distinct. -/
theorem Drawn.nodup {start : UInt32} {log : ServerLog ι} {ctx : ServerCtx} (hdrawn : Drawn start log ctx)
    (hfew : (sessionsOf (events log)).length ≤ 2 ^ 32) : (sessionsOf (events log)).Nodup := by
  rw [hdrawn.ids]
  refine List.Nodup.map_on ?_ List.nodup_range
  intro j hj k hk heq
  rw [List.mem_range] at hj hk
  have hofNat : UInt32.ofNat j = UInt32.ofNat k := add_left_cancel heq
  have htoNat := congrArg UInt32.toNat hofNat
  rw [UInt32.toNat_ofNat', UInt32.toNat_ofNat', Nat.mod_eq_of_lt (by omega), Nat.mod_eq_of_lt (by omega)] at htoNat
  exact htoNat

/-- The ids of one kind in a log, each with the thread it belongs to. -/
def tagged {β : Type} (f : Event ServerSig → Option β) (log : ServerLog ι) : List (ι × β) :=
  log.filterMap fun entry => (f entry.2).map fun b => (entry.1, b)

theorem map_snd_tagged {β : Type} (f : Event ServerSig → Option β) (log : ServerLog ι) :
    (tagged f log).map Prod.snd = (events log).filterMap f := by
  rw [tagged, events, List.map_filterMap, List.filterMap_map]
  refine List.filterMap_congr fun entry _ => ?_
  rw [Option.map_map]
  exact Option.map_id'

theorem mem_tagged {β : Type} [DecidableEq ι] {f : Event ServerSig → Option β} {log : ServerLog ι} {i : ι}
    {b : β} : (i, b) ∈ tagged f log ↔ b ∈ (Pool.eventsOf log i).filterMap f := by
  constructor
  · intro hmem
    obtain ⟨⟨j, e⟩, hentry, hf⟩ := List.mem_filterMap.mp hmem
    obtain ⟨b', hb', heq⟩ := Option.map_eq_some_iff.mp hf
    cases heq
    exact List.mem_filterMap.mpr ⟨e, Pool.mem_eventsOf.mpr hentry, hb'⟩
  · intro hmem
    obtain ⟨e, he, hb⟩ := List.mem_filterMap.mp hmem
    exact List.mem_filterMap.mpr ⟨(i, e), Pool.mem_eventsOf.mp he, by rw [hb]; rfl⟩

theorem count_tagged {β : Type} [DecidableEq ι] (f : Event ServerSig → Option β) (log : ServerLog ι) (i : ι) :
    ((tagged f log).map Prod.fst).count i = ((Pool.eventsOf log i).filterMap f).length := by
  induction log with
  | nil => rfl
  | cons entry log ih =>
      obtain ⟨j, e⟩ := entry
      simp only [tagged, Pool.eventsOf] at ih ⊢
      cases hf : f e with
      | none => by_cases hj : j = i <;> simp [hf, hj, ih]
      | some b => by_cases hj : j = i <;> simp [hf, hj, ih]

/-- Distinct threads were granted distinct ids, and each at most one. -/
theorem grants_nodup [DecidableEq ι] {log : ServerLog ι}
    (honce : ∀ i, (marksOf (Pool.eventsOf log i)).Once) (hnodup : (sessionsOf (events log)).Nodup) :
    (grantsOf (events log)).Nodup := by
  have hthreads : ((tagged grantOf log).map Prod.fst).Nodup := by
    refine List.nodup_iff_count_le_one.mpr fun i => ?_
    rw [count_tagged]
    exact (honce i).grants
  have hdrawn : ∀ entry ∈ tagged grantOf log, entry ∈ tagged sessionOf log := by
    rintro ⟨i, sessionId⟩ hmem
    exact mem_tagged.mpr ((honce i).drawn (mem_tagged.mp hmem))
  have hsessions : ((tagged sessionOf log).map Prod.snd).Nodup := by
    rw [map_snd_tagged]
    exact hnodup
  rw [grantsOf, ← map_snd_tagged]
  refine List.Nodup.map_on ?_ (List.Nodup.of_map _ hthreads)
  intro x hx y hy heq
  exact List.inj_on_of_nodup_map hsessions (hdrawn x hx) (hdrawn y hy) heq

/-! ### Every interleaving -/

/-- **The handshake.** Whatever the connections carry and however their workers are interleaved: no worker
reaches the sink, the frame assembler or a device before it has accepted a valid HELLO; a first accepted
packet of another type ends its connection; a worker sends at most one HELLO_ACK and keeps the device it was
bound to; and the session ids of all HELLO_ACKs are distinct as long as at most 2^32 have been drawn. -/
theorem handshake_gate [DecidableEq ι] (cfg : Config) (payloads : ι → PayloadBuf) (conns : ι → Conn)
    (ctx : ServerCtx) (schedule : List ι) :
    let pool := workerPool cfg payloads conns ctx schedule
    (∀ i, GateKept (Pool.eventsOf pool.log i)) ∧
    (∀ i, RefusesOthers (Pool.eventsOf pool.log i) (pool.threads i)) ∧
    (∀ i, BoundOnce (Pool.eventsOf pool.log i)) ∧
    ((sessionsOf (events pool.log)).length ≤ 2 ^ 32 → (grantsOf (events pool.log)).Nodup) := by
  intro pool
  have honce : ∀ i, (marksOf (Pool.eventsOf pool.log i)).Once := by
    intro i
    obtain ⟨st, haccepts, -⟩ := workerPool_accepts cfg payloads conns ctx schedule i
    exact (recounts_of_accepts haccepts).once
  refine ⟨fun i => ?_, fun i => ?_, fun i => (honce i).boundOnce, fun hfew => ?_⟩
  · obtain ⟨st, haccepts, -⟩ := workerPool_accepts cfg payloads conns ctx schedule i
    exact gateKept_of_accepts haccepts
  · obtain ⟨st, haccepts, htracks⟩ := workerPool_accepts cfg payloads conns ctx schedule i
    exact refusesOthers_of_accepts haccepts htracks
  · have hdrawn : Drawn ctx.nextSession pool.log pool.shared :=
      Pool.shared_invariant (clientWorker cfg) serverHandler (Drawn ctx.nextSession)
        (fun _ _ i o conn h => h.step i o conn) ⟨rfl, (add_zero _).symm⟩ schedule
    exact grants_nodup honce (hdrawn.nodup hfew)

theorem handshake_gate_twoWorkers :
    grantsOf (events (twoWorkers 9).log) = [1, 2] ∧ (grantsOf (events (twoWorkers 9).log)).Nodup := by
  have hgrants : grantsOf (events (twoWorkers 9).log) = [1, 2] := by decide +kernel
  have hfew : (sessionsOf (events (twoWorkers 9).log)).length ≤ 2 ^ 32 := by decide +kernel
  refine ⟨hgrants, ?_⟩
  rw [twoWorkers] at hfew ⊢
  exact (handshake_gate _ _ _ _ _).2.2.2 hfew

end PulseLink
