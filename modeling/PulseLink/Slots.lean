import PulseLink.ConnectionBooks
import PulseLink.Session

/-! The slots of the server and the descriptors of its clients. A slot is free, held by a worker that has not given
it back, or in the hand of the listener; a descriptor is closed once, by whoever has it. -/

namespace PulseLink

/-! ### Slots and descriptors -/

/-- The listener is between a successful `sem_trywait` and creating the thread or giving the slot back, going by
what it has performed. -/
def slotInHand (t : List (Event HostSig)) : Bool :=
  t.foldl (fun held e =>
    match e with
    | ⟨.semTrywait _, slot⟩ => slot
    | ⟨.pthreadCreate _, created⟩ => held && !created
    | ⟨.semPost _, _⟩ => false
    | _ => held) false

/-- The connection accepted in the current turn of the accept loop. -/
def busyWith (t : List (Event HostSig)) : Option Nat :=
  t.foldl (fun busy e =>
    match e with
    | ⟨.accept, cfd⟩ => cfd
    | ⟨.loadRunning, _⟩ => none
    | _ => busy) none

/-- The workers that have been created and have not given their slot back. -/
def unposted (pool : HostPool) : Finset Nat :=
  (Finset.range pool.shared.accepted).filter fun cfd =>
    0 < (tallyOf pool.log cfd).created ∧ (tallyOf pool.log cfd).posts = 0

/-- The listener has gone on to another turn, and the worker, if there is one, has left. -/
def Disposed (pool : HostPool) (cfd : Nat) : Prop :=
  busyWith (Pool.eventsOf pool.log .listener) ≠ some cfd ∧
    (0 < (tallyOf pool.log cfd).created → ∃ why, why ≠ .crash ∧ pool.threads (.worker cfd) = .done (.worker why))

def Desk.holdsSlot : Desk → Bool
  | .hand _ ph => ph.holdsSlot
  | _ => false

/-- What the listener performed says what it holds. -/
structure Desk.Shows (d : Desk) (t : List (Event HostSig)) : Prop where
  slot : slotInHand t = d.holdsSlot
  busy : ∀ cfd ph, d = .hand cfd ph → busyWith t = some cfd ∧ ph.withListener = true

theorem slotInHand_concat (t : List (Event HostSig)) (e : Event HostSig) :
    slotInHand (t ++ [e]) =
      match e with
      | ⟨.semTrywait _, slot⟩ => slot
      | ⟨.pthreadCreate _, created⟩ => slotInHand t && !created
      | ⟨.semPost _, _⟩ => false
      | _ => slotInHand t := by
  rw [slotInHand, List.foldl_concat]
  rfl

theorem busyWith_concat (t : List (Event HostSig)) (e : Event HostSig) :
    busyWith (t ++ [e]) =
      match e with
      | ⟨.accept, cfd⟩ => cfd
      | ⟨.loadRunning, _⟩ => none
      | _ => busyWith t := by
  rw [busyWith, List.foldl_concat]
  rfl

theorem Desk.Shows.advance {cfd : Nat} {ph ph' : ConnPhase} {e : Event HostSig} {t : List (Event HostSig)}
    (hshows : (Desk.hand cfd ph).Shows t) (hadvances : Advances cfd ph e ph') :
    (Desk.after cfd ph').Shows (t ++ [e]) := by
  obtain ⟨hbusy, hph⟩ := hshows.busy cfd ph rfl
  have hslot : slotInHand t = ph.holdsSlot := hshows.slot
  refine ⟨?_, fun cfd' ph'' hdesk => ?_⟩
  · rw [slotInHand_concat]
    cases hadvances with
    | trywait slot => cases slot <;> rfl
    | malloc ok => cases ok <;> exact hslot
    | create ok =>
        cases ok
        · exact (Bool.and_true _).trans hslot
        · exact Bool.and_false _
    | _ => first | exact hslot | rfl | cases hph
  · rw [Desk.after] at hdesk
    split_ifs at hdesk with hlistener
    cases hdesk
    refine ⟨?_, hlistener⟩
    rw [busyWith_concat]
    cases hadvances <;> exact hbusy

theorem Desk.Shows.step {d d' : Desk} {e : Event HostSig} {t : List (Event HostSig)} (hshows : d.Shows t)
    (hmoves : DeskMoves d e d') : d'.Shows (t ++ [e]) := by
  cases hmoves with
  | advance hadvances => exact hshows.advance hadvances
  | accept cfd =>
      cases cfd with
      | none => exact ⟨(slotInHand_concat ..).trans hshows.slot, nofun⟩
      | some cfd =>
          refine ⟨(slotInHand_concat ..).trans hshows.slot, ?_⟩
          rintro _ _ ⟨⟩
          exact ⟨busyWith_concat .., rfl⟩
  | bind ok => cases ok <;> exact ⟨(slotInHand_concat ..).trans hshows.slot, nofun⟩
  | _ => exact ⟨(slotInHand_concat ..).trans hshows.slot, nofun⟩

theorem InOrder.shows {maxClients : Nat} {pool : HostPool} {st : Party → Role} (hpool : InOrder maxClients pool st)
    {d : Desk} (hst : st .listener = .listener d) : d.Shows (Pool.eventsOf pool.log .listener) := by
  have hstart : ∃ d, startRole .listener = .listener d ∧ d.Shows [] := ⟨.opening, rfl, rfl, nofun⟩
  have hshows := (hpool.accepts .listener).invariant (P := fun r t => ∃ d, r = .listener d ∧ d.Shows t) ?_ hstart
  · obtain ⟨d', hst', hd'⟩ := hshows
    cases hst.symm.trans hst'
    exact hd'
  · rintro _ t e r' ⟨d, rfl, hd⟩ hmove
    obtain ⟨d', hnext, rfl⟩ := Option.map_eq_some_iff.mp hmove
    exact ⟨d', rfl, hd.step (deskMoves_of_next hnext)⟩

/-- The one connection of the listener that may hold a slot. -/
theorem Desk.Fits.sum {d : Desk} {phases : Nat → ConnPhase} (hd : d.Fits phases) {n : Nat}
    (hn : ∀ cfd, (phases cfd).withListener = true → cfd < n) :
    ∑ cfd ∈ Finset.range n, ((phases cfd).withListener && (phases cfd).holdsSlot).toNat = d.holdsSlot.toNat := by
  have hother : ∀ cfd, d ≠ .hand cfd (phases cfd) →
      ((phases cfd).withListener && (phases cfd).holdsSlot).toNat = 0 := by
    intro cfd hne
    rw [Bool.eq_false_of_not_eq_true fun h => hne (hd.only cfd h)]
    rfl
  by_cases hhand : ∃ cfd ph, d = .hand cfd ph
  · obtain ⟨cfd, ph, rfl⟩ := hhand
    obtain ⟨rfl, hlistener⟩ := hd.hand cfd ph rfl
    rw [Finset.sum_eq_single cfd]
    · rw [hlistener]
      rfl
    · intro k _ hk
      refine hother k fun h => ?_
      cases h
      exact hk rfl
    · exact fun hnot => absurd (Finset.mem_range.mpr (hn cfd hlistener)) hnot
  · rw [Finset.sum_eq_zero fun cfd _ => hother cfd fun h => hhand ⟨cfd, _, h⟩]
    cases d with
    | hand cfd ph => exact absurd ⟨cfd, ph, rfl⟩ hhand
    | _ => rfl

theorem ConnPhase.holdsSlot_split (ph : ConnPhase) :
    ph.holdsSlot.toNat = (if 0 < ph.tally.created ∧ ph.tally.posts = 0 then 1 else 0) +
      (ph.withListener && ph.holdsSlot).toNat := by
  cases ph <;> rfl

/-- Who holds the slots that are not free: workers that have not posted, and at most once the listener. -/
theorem ConnBooks.slots_held {maxClients : Nat} {phases : Nat → ConnPhase} {pool : HostPool} {d : Desk}
    (hbooks : ConnBooks maxClients phases pool.log pool.shared) (hd : d.Fits phases) :
    numberOf ConnPhase.holdsSlot phases pool.shared.accepted = (unposted pool).card + d.holdsSlot.toNat := by
  have hn : ∀ cfd, (phases cfd).withListener = true → cfd < pool.shared.accepted := by
    intro cfd hcfd
    refine Finset.mem_range.mp (hbooks.mem_range fun habsent => ?_)
    rw [habsent] at hcfd
    cases hcfd
  calc numberOf ConnPhase.holdsSlot phases pool.shared.accepted
    _ = ∑ cfd ∈ Finset.range pool.shared.accepted,
          ((if 0 < (tallyOf pool.log cfd).created ∧ (tallyOf pool.log cfd).posts = 0 then 1 else 0) +
            ((phases cfd).withListener && (phases cfd).holdsSlot).toNat) := by
        refine Finset.sum_congr rfl fun cfd _ => ?_
        rw [hbooks.tally cfd]
        exact (phases cfd).holdsSlot_split
    _ = (unposted pool).card + d.holdsSlot.toNat := by
        rw [Finset.sum_add_distrib, hd.sum hn, unposted, Finset.card_filter]

theorem ConnPhase.closes_le (ph : ConnPhase) : ph.tally.closes ≤ 1 := by cases ph <;> decide

/-- A connection that is neither new nor with the listener has been handed over, or closed by the listener. -/
theorem ConnPhase.closed_of_not_created {ph : ConnPhase} (habsent : ph ≠ .absent)
    (hlistener : ph.withListener = false) (hcreated : ph.tally.created = 0) : ph.tally.closes = 1 := by
  cases ph <;> first | rfl | exact absurd rfl habsent | (cases hcreated; done) | cases hlistener

/-- The phase of a connection whose worker has cleaned up. -/
theorem InOrder.gone {maxClients : Nat} {pool : HostPool} {st : Party → Role} (hpool : InOrder maxClients pool st)
    {phases : Nat → ConnPhase} (hpos : Positions st phases) {cfd : Nat} {why : ExitReason} (hwhy : why ≠ .crash)
    (hdone : pool.threads (.worker cfd) = .done (.worker why)) : phases cfd = .gone := by
  have htracks := hpool.tracks (.worker cfd)
  rw [hdone, hpos.worker] at htracks
  obtain ⟨k, hrole⟩ := htracks
  rw [if_neg hwhy] at hrole
  obtain ⟨-, hgone⟩ := Role.worker.inj hrole
  split_ifs at hgone
  exact hgone

/-- Where a connection is when everybody is through with it: turned down by the listener, or gone. -/
theorem InOrder.disposed {maxClients : Nat} {pool : HostPool} {st : Party → Role}
    (hpool : InOrder maxClients pool st) {phases : Nat → ConnPhase} (hpos : Positions st phases)
    (hbooks : ConnBooks maxClients phases pool.log pool.shared) {cfd : Nat} (hdisposed : Disposed pool cfd) :
    ((phases cfd).withListener = false ∧ (phases cfd).tally.created = 0) ∨ phases cfd = .gone := by
  obtain ⟨hbusy, hworker⟩ := hdisposed
  obtain ⟨d, hst, hd⟩ := hpos.listener
  have hlistener : (phases cfd).withListener = false :=
    Bool.eq_false_of_not_eq_true fun h => hbusy ((InOrder.shows hpool hst).busy cfd _ (hd.only cfd h)).1
  rw [hbooks.tally cfd] at hworker
  rcases Nat.eq_zero_or_pos (phases cfd).tally.created with hzero | hcreated
  · exact Or.inl ⟨hlistener, hzero⟩
  · obtain ⟨why, hwhy, hdone⟩ := hworker hcreated
    exact Or.inr (InOrder.gone hpool hpos hwhy hdone)

/-! ### Who closes -/

/-- The operations on the descriptor of connection `cfd`. -/
def onDescriptor (cfd : Nat) : HostOp → Bool
  | .serve k (.readN _) | .serve k (.writeN _) | .close k => k = cfd
  | _ => false

theorem aim_of_onDescriptor {cfd : Nat} {o : HostOp} (huse : onDescriptor cfd o = true) : aim o = some cfd := by
  cases o with
  | serve k o => cases o <;> first | exact congrArg some (of_decide_eq_true huse) | cases huse
  | close k => exact congrArg some (of_decide_eq_true huse)
  | _ => cases huse

/-- The thread that uses the descriptor is the one that has the connection in this phase. -/
theorem descriptor_party {boot : Boot} {schedule : List Party} {st : Party → Role} {phases : Nat → ConnPhase}
    {log : List (Party × Event HostSig)} {i : Party} {e : Event HostSig} {r' : Role} {cfd : Nat}
    (hgate : mayStep (boot.run schedule) i = true) (hpos : Positions st phases)
    (hbooks : ConnBooks boot.maxClients phases log (boot.run schedule).shared) (hmove : Role.next (st i) e = some r')
    (huse : onDescriptor cfd e.op = true) :
    ∃ ph', Advances cfd (phases cfd) e ph' ∧
      ((i = .worker cfd ∧ (phases cfd).spawned = true) ∨ (i = .listener ∧ (phases cfd).spawned = false)) := by
  have haim := aim_of_onDescriptor huse
  cases i with
  | worker k =>
      have hspawned : (phases k).spawned = true := (hbooks.spawned k).symm.trans hgate
      rw [hpos.worker, if_pos hspawned, Role.next] at hmove
      split_ifs at hmove with hk
      obtain ⟨ph', hnext, -⟩ := Option.map_eq_some_iff.mp hmove
      cases haim.symm.trans hk
      exact ⟨ph', advances_of_next haim hnext, .inl ⟨rfl, hspawned⟩⟩
  | listener =>
      obtain ⟨d, hst, hd⟩ := hpos.listener
      rw [hst] at hmove
      obtain ⟨d', hnext, -⟩ := Option.map_eq_some_iff.mp hmove
      cases deskMoves_of_next hnext with
      | @advance k ph ph' _ hadvances =>
          cases haim.symm.trans hadvances.aim
          obtain ⟨rfl, hlistener⟩ := hd.hand _ _ rfl
          exact ⟨ph', hadvances, .inr ⟨rfl, (hadvances.hand_over hlistener).1⟩⟩
      | _ => cases huse
  | signal =>
      rw [hpos.signal] at hmove
      obtain ⟨o, ans⟩ := e
      cases o <;> first | (cases hmove; done) | cases huse
  | main =>
      obtain ⟨m, hm, -⟩ := hpos.main
      rw [hm] at hmove
      obtain ⟨m', hnext, -⟩ := Option.map_eq_some_iff.mp hmove
      obtain ⟨hnone, -⟩ := mainStage_next hnext
      rw [haim] at hnone
      cases hnone

/-- A descriptor is closed by the listener or by its worker. -/
theorem closed_by (boot : Boot) (schedule : List Party) {i : Party} {cfd : Nat} {u : Unit}
    (hmem : (i, ⟨.close cfd, u⟩) ∈ (boot.run schedule).log) : i = .listener ∨ i = .worker cfd := by
  obtain ⟨before, after, hlog⟩ := List.append_of_mem hmem
  obtain ⟨schedule', st, phases, r', -, hgate, -, hpos, hbooks, hmove, -⟩ := moment boot hlog
  have huse : onDescriptor cfd (.close cfd) = true := decide_eq_true rfl
  obtain ⟨ph', -, ⟨rfl, -⟩ | ⟨rfl, -⟩⟩ := descriptor_party hgate hpos hbooks hmove huse
  · exact .inr rfl
  · exact .inl rfl

/-! ### Every run -/

/-- **Slots are conserved.** In every state that the accept loop, the workers, signals and the shutdown can reach,
the free slots, the workers created that have not posted and the slot in the hand of the listener make up
`max_clients`. So at most that many workers hold a slot. No descriptor is closed twice, nobody but the listener and
its worker closes it, and every one is closed once the listener has gone on and the worker, if it got one, has left. -/
theorem slots_conserved (boot : Boot) (schedule : List Party) :
    let pool := boot.run schedule
    pool.shared.ctx.clientSlots + (unposted pool).card +
        (slotInHand (Pool.eventsOf pool.log .listener)).toNat = boot.maxClients ∧
      (unposted pool).card ≤ boot.maxClients ∧
      ∀ cfd < pool.shared.accepted, (tallyOf pool.log cfd).closes ≤ 1 ∧
        (∀ i u, (i, ⟨.close cfd, u⟩) ∈ pool.log → i = .listener ∨ i = .worker cfd) ∧
        (Disposed pool cfd → (tallyOf pool.log cfd).closes = 1) := by
  intro pool
  obtain ⟨st, hpool⟩ := server_inOrder boot schedule
  obtain ⟨phases, hpos, hbooks⟩ := hpool.holds
  obtain ⟨d, hst, hd⟩ := hpos.listener
  have hshows := InOrder.shows hpool hst
  have hslots := hbooks.slots
  rw [hbooks.slots_held hd, ← Nat.add_assoc, ← hshows.slot] at hslots
  refine ⟨hslots, hslots ▸ (Nat.le_add_left _ _).trans (Nat.le_add_right _ _), fun cfd hcfd => ?_⟩
  rw [hbooks.tally cfd]
  refine ⟨(phases cfd).closes_le, fun i u hmem => closed_by boot schedule hmem, fun hdisposed => ?_⟩
  have habsent : phases cfd ≠ .absent := fun h => absurd hcfd (Nat.not_lt.mpr ((hbooks.absent cfd).mp h))
  rcases InOrder.disposed hpool hpos hbooks hdisposed with ⟨hlistener, hcreated⟩ | hgone
  · exact ConnPhase.closed_of_not_created habsent hlistener hcreated
  · rw [hgone]
    rfl

/-- The worker threads that have been created and have not returned. -/
def liveWorkers (pool : HostPool) : Finset Nat :=
  (Finset.range pool.shared.accepted).filter fun cfd =>
    0 < (tallyOf pool.log cfd).created ∧ (pool.threads (.worker cfd)).finished = false

/-- A server for one client at a time, to which two come. -/
def oneSlot : Boot where
  cfg := ⟨.little, none⟩
  maxClients := 1
  payloads _ := zeroPayload
  conns _ := scripted []
  ctx := freshServer
  choices := ⟨[], [.ready false true, .ready false true], [], [], []⟩

/-- The first worker has posted and not yet taken itself off the count when the second one is created. -/
def slotReused : List Party :=
  List.replicate 11 .listener ++ List.replicate 9 (.worker 0) ++ List.replicate 9 .listener ++
    List.replicate 3 (.worker 1)

theorem live_workers_exceed_slots :
    liveWorkers (oneSlot.run slotReused) = {0, 1} ∧
      (oneSlot.run slotReused).shared.ctx.activeWorkers = 2 ∧
      ¬ (liveWorkers (oneSlot.run slotReused)).card ≤ oneSlot.maxClients := by
  have hlive : liveWorkers (oneSlot.run slotReused) = {0, 1} := by decide +kernel
  refine ⟨hlive, by decide +kernel, ?_⟩
  rw [hlive]
  decide

end PulseLink
