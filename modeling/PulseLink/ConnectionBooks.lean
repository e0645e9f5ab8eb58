import PulseLink.ConnectionLife

/-! The books of the server: in every reachable state the connections are in phases from which the free slots, the
count of active workers, the arguments and the log can be read off, and every thread is where its connections
are. A move of one connection changes what is kept about that connection and nothing else. -/

namespace PulseLink

/-! ### What a move does to the shared state -/

/-- The connection `cfd` goes from phase `ph` to `ph'`: whatever is kept about it in the shared state and the log
follows, and nothing else changes. -/
structure Effect (cfd : Nat) (ph ph' : ConnPhase) (e : Event HostSig) (s s' : Host) : Prop where
  accepted : s'.accepted = s.accepted
  spawned : s'.spawned = Function.update s.spawned cfd ph'.spawned
  args : s'.args = Function.update s.args cfd ph'.arg
  tally : ph.tally.add e = ph'.tally
  slots : s'.ctx.clientSlots + ph'.holdsSlot.toNat = s.ctx.clientSlots + ph.holdsSlot.toNat
  active : s'.ctx.activeWorkers + ph.counted.toNat = s.ctx.activeWorkers + ph'.counted.toNat

/-- What the books are kept about stays. -/
structure HostUntouched (s s' : Host) : Prop where
  accepted : s'.accepted = s.accepted
  spawned : s'.spawned = s.spawned
  args : s'.args = s.args
  slots : s'.ctx.clientSlots = s.ctx.clientSlots
  active : s'.ctx.activeWorkers = s.ctx.activeWorkers

theorem serve_untouched {o : ServerOp} (ho : inTurn o = true) (cfd : Nat) (conn : Conn) (s : Host) :
    HostUntouched s (hostHandler (.serve cfd o) (conn, s)).2.2 := by
  cases o with
  | writeFile path bytes =>
      simp only [hostHandler, serverHandler]
      split <;> exact ⟨rfl, rfl, rfl, rfl, rfl⟩
  | activeAdd | activeSub | closeFd | semPost | freeArg => cases ho
  | _ => exact ⟨rfl, rfl, rfl, rfl, rfl⟩

theorem effect_of_advances {cfd : Nat} {o : HostOp} {conn : Conn} {s : Host} {ph ph' : ConnPhase}
    (hspawned : s.spawned cfd = ph.spawned) (hargs : s.args cfd = ph.arg)
    (hadvances : Advances cfd ph ⟨o, (hostHandler o (conn, s)).1⟩ ph') :
    Effect cfd ph ph' ⟨o, (hostHandler o (conn, s)).1⟩ s (hostHandler o (conn, s)).2.2 := by
  have hsame : Function.update s.spawned cfd ph.spawned = s.spawned ∧ Function.update s.args cfd ph.arg = s.args :=
    ⟨Function.update_eq_self_iff.mpr hspawned.symm, Function.update_eq_self_iff.mpr hargs.symm⟩
  generalize he : (⟨o, (hostHandler o (conn, s)).1⟩ : Event HostSig) = e at hadvances
  cases hadvances with
  | trywait slot =>
      cases he
      by_cases hzero : s.ctx.clientSlots = 0
      · have hop : hostHandler (.semTrywait cfd) (conn, s) = (false, conn, s) := if_pos hzero
        rw [hop]
        exact ⟨rfl, hsame.1.symm, hsame.2.symm, rfl, rfl, rfl⟩
      · have hop : hostHandler (.semTrywait cfd) (conn, s) =
            (true, conn, { s with ctx := { s.ctx with clientSlots := s.ctx.clientSlots - 1 } }) := if_neg hzero
        rw [hop]
        refine ⟨rfl, hsame.1.symm, hsame.2.symm, rfl, ?_, rfl⟩
        exact Nat.succ_pred_eq_of_ne_zero hzero
  | malloc ok =>
      cases he
      cases hok : (draw true s.choices.mallocs).1 with
      | false =>
          simp only [hostHandler, hok]
          exact ⟨rfl, hsame.1.symm, hsame.2.symm, rfl, rfl, rfl⟩
      | true =>
          simp only [hostHandler, hok]
          exact ⟨rfl, hsame.1.symm, rfl, rfl, rfl, rfl⟩
  | create ok =>
      cases he
      cases hok : (draw true s.choices.creates).1 with
      | false =>
          simp only [hostHandler, hok]
          exact ⟨rfl, hsame.1.symm, hsame.2.symm, rfl, rfl, rfl⟩
      | true =>
          simp only [hostHandler, hok]
          exact ⟨rfl, rfl, rfl, rfl, rfl, rfl⟩
  | turnAway | drop | fill | closeNoThread | begin | logTurn | close | logExit | postNoMemory | postNoThread
  | post =>
      cases he
      exact ⟨rfl, hsame.1.symm, hsame.2.symm, rfl, rfl, rfl⟩
  | serve ho ans =>
      cases he
      have hs := serve_untouched ho cfd conn s
      refine ⟨hs.accepted, hs.spawned.trans hsame.1.symm, hs.args.trans hsame.2.symm, rfl, ?_, ?_⟩
      · rw [hs.slots]
      · rw [hs.active]
  | rollBack | free =>
      cases he
      exact ⟨rfl, hsame.1.symm, rfl, rfl, rfl, rfl⟩
  | start =>
      cases he
      exact ⟨rfl, hsame.1.symm, hsame.2.symm, rfl, rfl, Int.add_zero _⟩
  | resign =>
      cases he
      refine ⟨rfl, hsame.1.symm, hsame.2.symm, rfl, rfl, ?_⟩
      show s.ctx.activeWorkers - 1 + 1 = s.ctx.activeWorkers + 0
      omega

/-! ### The books -/

/-- How many of the first `n` connections are in a phase with `p`. -/
def numberOf (p : ConnPhase → Bool) (phases : Nat → ConnPhase) (n : Nat) : Nat :=
  ∑ cfd ∈ Finset.range n, (p (phases cfd)).toNat

/-- What the shared state and the log say, as the phases of the connections have it. -/
structure ConnBooks (maxClients : Nat) (phases : Nat → ConnPhase) (log : List (Party × Event HostSig))
    (s : Host) : Prop where
  absent : ∀ cfd, phases cfd = .absent ↔ s.accepted ≤ cfd
  spawned : ∀ cfd, s.spawned cfd = (phases cfd).spawned
  args : ∀ cfd, s.args cfd = (phases cfd).arg
  tally : ∀ cfd, tallyOf log cfd = (phases cfd).tally
  slots : s.ctx.clientSlots + numberOf ConnPhase.holdsSlot phases s.accepted = maxClients
  active : s.ctx.activeWorkers = numberOf ConnPhase.counted phases s.accepted

theorem Advances.aim {cfd : Nat} {ph ph' : ConnPhase} {e : Event HostSig} (hadvances : Advances cfd ph e ph') :
    aim e.op = some cfd := by
  cases hadvances <;> rfl

theorem Advances.ne_absent {cfd : Nat} {ph ph' : ConnPhase} {e : Event HostSig}
    (hadvances : Advances cfd ph e ph') :
    ph ≠ .absent ∧ ph' ≠ .absent := by
  cases hadvances with
  | trywait slot => cases slot <;> exact ⟨nofun, nofun⟩
  | malloc ok => cases ok <;> exact ⟨nofun, nofun⟩
  | create ok => cases ok <;> exact ⟨nofun, nofun⟩
  | _ => exact ⟨nofun, nofun⟩

section Steps

variable {maxClients : Nat} {phases : Nat → ConnPhase} {log : List (Party × Event HostSig)} {s : Host}

theorem ConnBooks.mem_range (hbooks : ConnBooks maxClients phases log s) {cfd : Nat}
    (hcfd : phases cfd ≠ .absent) :
    cfd ∈ Finset.range s.accepted :=
  Finset.mem_range.mpr (Nat.not_le.mp fun hle => hcfd ((hbooks.absent cfd).mpr hle))

/-- A move of one connection. -/
theorem ConnBooks.advance (hbooks : ConnBooks maxClients phases log s) (i : Party) {o : HostOp} {conn : Conn}
    {cfd : Nat}
    {ph' : ConnPhase} (hadvances : Advances cfd (phases cfd) ⟨o, (hostHandler o (conn, s)).1⟩ ph') :
    ConnBooks maxClients (Function.update phases cfd ph') (log ++ [(i, ⟨o, (hostHandler o (conn, s)).1⟩)])
      (hostHandler o (conn, s)).2.2 := by
  obtain ⟨hph, hph'⟩ := hadvances.ne_absent
  have hmem := hbooks.mem_range hph
  have haim := hadvances.aim
  obtain ⟨haccepted, hspawned, hargs, htally, hslots, hactive⟩ :=
    effect_of_advances (hbooks.spawned cfd) (hbooks.args cfd) hadvances
  refine ⟨fun k => ?_, fun k => ?_, fun k => ?_, fun k => ?_, ?_, ?_⟩
  · rw [haccepted, ← hbooks.absent k]
    by_cases hk : k = cfd
    · rw [hk, Function.update_self]
      exact iff_of_false hph' hph
    · rw [Function.update_of_ne hk]
  · rw [hspawned]
    by_cases hk : k = cfd
    · rw [hk, Function.update_self, Function.update_self]
    · rw [Function.update_of_ne hk, Function.update_of_ne hk, hbooks.spawned k]
  · rw [hargs]
    by_cases hk : k = cfd
    · rw [hk, Function.update_self, Function.update_self]
    · rw [Function.update_of_ne hk, Function.update_of_ne hk, hbooks.args k]
  · rw [tallyOf_concat, haim, hbooks.tally k]
    by_cases hk : k = cfd
    · rw [hk, if_pos rfl, Function.update_self, htally]
    · rw [if_neg fun h => hk (Option.some.inj h).symm, Function.update_of_ne hk]
  · have hsum := sum_update_add hmem (fun ph : ConnPhase => ph.holdsSlot.toNat) phases ph'
    have hbefore := hbooks.slots
    rw [haccepted]
    simp only [numberOf] at hbefore ⊢
    omega
  · have hsum := sum_update_add hmem (fun ph : ConnPhase => ph.counted.toNat) phases ph'
    have hbefore := hbooks.active
    rw [haccepted]
    simp only [numberOf] at hbefore ⊢
    omega

/-- A new connection. -/
theorem ConnBooks.accept (hbooks : ConnBooks maxClients phases log s) (i : Party) {s' : Host}
    (haccepted : s'.accepted = s.accepted + 1)
    (hspawned : s'.spawned = s.spawned) (hargs : s'.args = s.args) (hctx : s'.ctx = s.ctx) :
    ConnBooks maxClients (Function.update phases s.accepted .accepted)
      (log ++ [(i, ⟨.accept, some s.accepted⟩)]) s' := by
  have hnew : phases s.accepted = .absent := (hbooks.absent _).mpr (Nat.le_refl _)
  have hcount : ∀ p : ConnPhase → Bool, p .accepted = false →
      numberOf p (Function.update phases s.accepted .accepted) (s.accepted + 1) =
        numberOf p phases s.accepted := by
    intro p hp
    rw [numberOf, numberOf, Finset.sum_range_succ, Function.update_self, hp, Bool.toNat_false, Nat.add_zero]
    refine Finset.sum_congr rfl fun k hk => ?_
    rw [Function.update_of_ne (Nat.ne_of_lt (Finset.mem_range.mp hk))]
  refine ⟨fun k => ?_, fun k => ?_, fun k => ?_, fun k => ?_, ?_, ?_⟩
  · rw [haccepted]
    by_cases hk : k = s.accepted
    · rw [hk, Function.update_self]
      exact iff_of_false nofun (Nat.not_succ_le_self _)
    · rw [Function.update_of_ne hk, hbooks.absent k]
      omega
  · rw [hspawned, hbooks.spawned k]
    by_cases hk : k = s.accepted
    · rw [hk, Function.update_self, hnew]
      rfl
    · rw [Function.update_of_ne hk]
  · rw [hargs, hbooks.args k]
    by_cases hk : k = s.accepted
    · rw [hk, Function.update_self, hnew]
      rfl
    · rw [Function.update_of_ne hk]
  · rw [tallyOf_concat, if_neg nofun, hbooks.tally k]
    by_cases hk : k = s.accepted
    · rw [hk, Function.update_self, hnew]
      rfl
    · rw [Function.update_of_ne hk]
  · rw [hctx, haccepted, hcount _ rfl]
    exact hbooks.slots
  · rw [hctx, haccepted, hcount _ rfl]
    exact hbooks.active

/-- Any other operation. -/
theorem ConnBooks.quiet (hbooks : ConnBooks maxClients phases log s) (i : Party) {e : Event HostSig} {s' : Host}
    (hs : HostUntouched s s') (he : ∀ y : ConnTally, aim e.op ≠ none → y.add e = y) :
    ConnBooks maxClients phases (log ++ [(i, e)]) s' := by
  refine ⟨hs.accepted ▸ hbooks.absent, hs.spawned ▸ hbooks.spawned, hs.args ▸ hbooks.args, fun k => ?_, ?_, ?_⟩
  · rw [tallyOf_concat]
    split_ifs with haim
    · rw [he _ (by rw [haim]; nofun), hbooks.tally k]
    · exact hbooks.tally k
  · rw [hs.slots, hs.accepted]
    exact hbooks.slots
  · rw [hs.active, hs.accepted]
    exact hbooks.active

end Steps

/-! ### Who is where -/

/-- The connection the listener is busy with is the only one that is the listener's. -/
structure Desk.Fits (d : Desk) (phases : Nat → ConnPhase) : Prop where
  hand : ∀ cfd ph, d = .hand cfd ph → phases cfd = ph ∧ ph.withListener = true
  only : ∀ cfd, (phases cfd).withListener = true → d = .hand cfd (phases cfd)

/-- How the roles of the threads fit the phases of the connections. -/
structure Positions (st : Party → Role) (phases : Nat → ConnPhase) : Prop where
  listener : ∃ d, st .listener = .listener d ∧ d.Fits phases
  worker : ∀ cfd, st (.worker cfd) = .worker cfd (if (phases cfd).spawned then phases cfd else .handed)
  signal : st .signal = .signal
  main : ∃ m, st .main = .main m ∧ (m ≠ .joining → st .listener = .listener .left)

/-- The books are kept, and every thread is where its connections are. -/
def Kept (maxClients : Nat) (st : Party → Role) (log : List (Party × Event HostSig)) (s : Host) : Prop :=
  ∃ phases, Positions st phases ∧ ConnBooks maxClients phases log s

theorem Advances.hand_over {cfd : Nat} {ph ph' : ConnPhase} {e : Event HostSig} (hadvances : Advances cfd ph e ph')
    (hph : ph.withListener = true) : ph.spawned = false ∧ (ph'.spawned = true → ph' = .handed) := by
  cases hadvances with
  | trywait slot => cases slot <;> exact ⟨rfl, nofun⟩
  | malloc ok => cases ok <;> exact ⟨rfl, nofun⟩
  | create ok =>
      cases ok
      · exact ⟨rfl, nofun⟩
      · exact ⟨rfl, fun _ => rfl⟩
  | _ => first | exact ⟨rfl, nofun⟩ | cases hph

theorem Advances.stays_spawned {cfd : Nat} {ph ph' : ConnPhase} {e : Event HostSig}
    (hadvances : Advances cfd ph e ph') (hph : ph.spawned = true) : ph'.spawned = true := by
  cases hadvances <;> first | rfl | cases hph

theorem ConnPhase.not_withListener {ph : ConnPhase} (hph : ph.spawned = true) : ph.withListener = false := by
  cases ph <;> first | rfl | cases hph

section Parties

variable {maxClients : Nat} {st : Party → Role} {phases : Nat → ConnPhase} {log : List (Party × Event HostSig)}
  {s : Host}

/-- The listener goes on to `d`, which moves no connection that is not its own. -/
theorem Positions.listens (hpos : Positions st phases) {d : Desk} {phases' : Nat → ConnPhase} (hd : d.Fits phases')
    (hworkers : ∀ cfd, (if (phases' cfd).spawned then phases' cfd else .handed) =
      if (phases cfd).spawned then phases cfd else .handed)
    (hmain : st .listener ≠ .listener .left) : Positions (Function.update st .listener (.listener d)) phases' := by
  obtain ⟨m, hm, hjoined⟩ := hpos.main
  refine ⟨⟨d, Function.update_self .., hd⟩, fun cfd => ?_, by simpa using hpos.signal, m, by simpa using hm, ?_⟩
  · rw [hworkers cfd]
    simpa using hpos.worker cfd
  · exact fun hpast => absurd (hjoined hpast) hmain

/-- A worker goes on. -/
theorem Positions.works (hpos : Positions st phases) {cfd : Nat} {ph' : ConnPhase}
    (hspawned : (phases cfd).spawned = true) (hph' : ph'.spawned = true) :
    Positions (Function.update st (.worker cfd) (.worker cfd ph')) (Function.update phases cfd ph') := by
  obtain ⟨d, hst, hd⟩ := hpos.listener
  obtain ⟨m, hm, hjoined⟩ := hpos.main
  refine ⟨⟨d, by simpa using hst, fun k ph hdesk => ?_, fun k hk => ?_⟩, fun k => ?_,
    by simpa using hpos.signal, m, by simpa using hm, by simpa using hjoined⟩
  · obtain ⟨hphase, hlistener⟩ := hd.hand k ph hdesk
    have hne : k ≠ cfd := by
      rintro rfl
      rw [← hphase, ConnPhase.not_withListener hspawned] at hlistener
      cases hlistener
    rw [Function.update_of_ne hne]
    exact ⟨hphase, hlistener⟩
  · by_cases hne : k = cfd
    · rw [hne, Function.update_self, ConnPhase.not_withListener hph'] at hk
      cases hk
    · rw [Function.update_of_ne hne] at hk ⊢
      exact hd.only k hk
  · by_cases hne : k = cfd
    · rw [hne, Function.update_self, Function.update_self, if_pos hph']
    · rw [Function.update_of_ne hne, Function.update_of_ne fun h => hne (Party.worker.inj h)]
      exact hpos.worker k

/-- The listener goes on with nothing in its hand, before and after. -/
theorem Positions.rest (hpos : Positions st phases) {d d' : Desk} (hst : st .listener = .listener d)
    (hopen : d ≠ .left) (hfree : ∀ cfd ph, d ≠ .hand cfd ph) (hfree' : ∀ cfd ph, d' ≠ .hand cfd ph) :
    Positions (Function.update st .listener (.listener d')) phases := by
  obtain ⟨d₁, hst₁, hd⟩ := hpos.listener
  obtain rfl : d₁ = d := Role.listener.inj (hst₁.symm.trans hst)
  have hfits : d'.Fits phases :=
    ⟨fun cfd ph h => absurd h (hfree' cfd ph), fun cfd h => absurd (hd.only cfd h) (hfree cfd _)⟩
  refine hpos.listens hfits (fun _ => rfl) ?_
  rw [hst]
  exact fun h => hopen (Role.listener.inj h)

/-- What is in the listener's hand moves. -/
theorem Positions.hand (hpos : Positions st phases) {cfd : Nat} {ph' : ConnPhase} {e : Event HostSig}
    (hst : st .listener = .listener (.hand cfd (phases cfd))) (hadvances : Advances cfd (phases cfd) e ph') :
    Positions (Function.update st .listener (.listener (Desk.after cfd ph')))
      (Function.update phases cfd ph') := by
  obtain ⟨d, hst', hd⟩ := hpos.listener
  obtain rfl := Role.listener.inj (hst'.symm.trans hst)
  obtain ⟨hfree, hhanded⟩ := hadvances.hand_over (hd.hand cfd _ rfl).2
  refine hpos.listens ⟨fun k ph hdesk => ?_, fun k hk => ?_⟩ (fun k => ?_) (by rw [hst]; nofun)
  · rw [Desk.after] at hdesk
    split_ifs at hdesk with hlistener
    cases hdesk
    rw [Function.update_self]
    exact ⟨rfl, hlistener⟩
  · by_cases hne : k = cfd
    · rw [hne, Function.update_self] at hk ⊢
      rw [Desk.after, if_pos hk]
    · rw [Function.update_of_ne hne] at hk
      cases hd.only k hk
      exact absurd rfl hne
  · by_cases hne : k = cfd
    · rw [hne, Function.update_self, if_neg (show ¬ (phases cfd).spawned = true by rw [hfree]; nofun)]
      split_ifs with hspawned
      · exact hhanded hspawned
      · rfl
    · rw [Function.update_of_ne hne]

/-- The listener gets a new connection into its hand. -/
theorem Positions.accept (hpos : Positions st phases) (hst : st .listener = .listener .idle) {n : Nat}
    (hnew : phases n = .absent) :
    Positions (Function.update st .listener (.listener (.hand n .accepted)))
      (Function.update phases n .accepted) := by
  obtain ⟨d, hst', hd⟩ := hpos.listener
  obtain rfl := Role.listener.inj (hst'.symm.trans hst)
  refine hpos.listens ⟨fun k ph hdesk => ?_, fun k hk => ?_⟩ (fun k => ?_) (by rw [hst]; nofun)
  · cases hdesk
    rw [Function.update_self]
    exact ⟨rfl, rfl⟩
  · by_cases hne : k = n
    · rw [hne, Function.update_self]
    · rw [Function.update_of_ne hne] at hk
      cases hd.only k hk
  · by_cases hne : k = n
    · rw [hne, Function.update_self, hnew]
      rfl
    · rw [Function.update_of_ne hne]

/-- The operations that leave the books alone. -/
theorem untouched_of_aim {o : HostOp} (haim : aim o = none) (ho : o ≠ .accept) (conn : Conn) (s : Host) :
    HostUntouched s (hostHandler o (conn, s)).2.2 := by
  cases o with
  | accept => exact absurd rfl ho
  | poll =>
      simp only [hostHandler]
      split <;> exact ⟨rfl, rfl, rfl, rfl, rfl⟩
  | _ => first | cases haim; done | exact ⟨rfl, rfl, rfl, rfl, rfl⟩

/-- A call of `accept` by the listener. -/
theorem Kept.accept (hpos : Positions st phases) (hbooks : ConnBooks maxClients phases log s)
    (hst : st .listener = .listener .idle) (conn : Conn) :
    let cfd : Option Nat := (hostHandler .accept (conn, s)).1
    Kept maxClients (Function.update st .listener (.listener (cfd.elim .idle fun cfd => .hand cfd .accepted)))
      (log ++ [(.listener, ⟨.accept, cfd⟩)]) (hostHandler .accept (conn, s)).2.2 := by
  cases hok : (draw true s.choices.accepts).1 with
  | false =>
      have hop : hostHandler .accept (conn, s) = (none, conn,
          { s with choices := { s.choices with accepts := (draw true s.choices.accepts).2 } }) := by
        simp [hostHandler, hok]
      rw [hop]
      exact ⟨phases, hpos.rest hst nofun nofun nofun,
        hbooks.quiet .listener ⟨rfl, rfl, rfl, rfl, rfl⟩ fun _ h => absurd rfl h⟩
  | true =>
      have hop : hostHandler .accept (conn, s) = (some s.accepted, conn,
          { s with choices := { s.choices with accepts := (draw true s.choices.accepts).2 },
                   accepted := s.accepted + 1 }) := by
        simp [hostHandler, hok]
      rw [hop]
      exact ⟨_, hpos.accept hst ((hbooks.absent _).mpr (Nat.le_refl _)),
        hbooks.accept .listener rfl rfl rfl rfl⟩

/-- The moves of the listener keep the books. -/
theorem Kept.listener (hpos : Positions st phases) (hbooks : ConnBooks maxClients phases log s) {d d' : Desk}
    (hst : st .listener = .listener d) {o : HostOp} {conn : Conn}
    (hmoves : DeskMoves d ⟨o, (hostHandler o (conn, s)).1⟩ d') :
    Kept maxClients (Function.update st .listener (.listener d'))
      (log ++ [(.listener, ⟨o, (hostHandler o (conn, s)).1⟩)]) (hostHandler o (conn, s)).2.2 := by
  have hquiet : aim o = none → o ≠ .accept → ConnBooks maxClients phases
      (log ++ [(.listener, ⟨o, (hostHandler o (conn, s)).1⟩)]) (hostHandler o (conn, s)).2.2 :=
    fun haim ho => hbooks.quiet .listener (untouched_of_aim haim ho conn s) fun _ h => absurd haim h
  generalize he : (⟨o, (hostHandler o (conn, s)).1⟩ : Event HostSig) = e at hmoves
  cases hmoves with
  | bind ok =>
      cases he
      refine ⟨phases, hpos.rest hst nofun nofun ?_, hquiet rfl nofun⟩
      split_ifs <;> nofun
  | giveUp | look | poll | leave =>
      cases he
      exact ⟨phases, hpos.rest hst nofun nofun nofun, hquiet rfl nofun⟩
  | log cfd found =>
      cases he
      exact ⟨phases, hpos.rest hst nofun nofun nofun,
        hbooks.quiet .listener ⟨rfl, rfl, rfl, rfl, rfl⟩ fun _ _ => rfl⟩
  | advance hadvances =>
      subst he
      obtain ⟨d, hst', hd⟩ := hpos.listener
      obtain rfl := Role.listener.inj (hst'.symm.trans hst)
      obtain ⟨rfl, -⟩ := hd.hand _ _ rfl
      exact ⟨_, hpos.hand hst hadvances, hbooks.advance .listener hadvances⟩
  | accept cfd =>
      cases he
      exact Kept.accept hpos hbooks hst conn

/-- The moves of a worker that has been created keep the books. -/
theorem Kept.worker (hpos : Positions st phases) (hbooks : ConnBooks maxClients phases log s) {cfd : Nat}
    (hspawned : s.spawned cfd = true) {o : HostOp} {conn : Conn} {r' : Role}
    (hmove : Role.next (st (.worker cfd)) ⟨o, (hostHandler o (conn, s)).1⟩ = some r') :
    Kept maxClients (Function.update st (.worker cfd) r')
      (log ++ [(.worker cfd, ⟨o, (hostHandler o (conn, s)).1⟩)]) (hostHandler o (conn, s)).2.2 := by
  rw [hbooks.spawned] at hspawned
  rw [hpos.worker, if_pos hspawned, Role.next] at hmove
  split_ifs at hmove with haim
  obtain ⟨ph', hnext, rfl⟩ := Option.map_eq_some_iff.mp hmove
  have hadvances := advances_of_next haim hnext
  exact ⟨_, hpos.works hspawned (hadvances.stays_spawned hspawned), hbooks.advance _ hadvances⟩

/-- `main` goes on; past the join the listener has left. -/
theorem Positions.mains (hpos : Positions st phases) {m : MainStage}
    (hm : m ≠ .joining → st .listener = .listener .left) :
    Positions (Function.update st .main (.main m)) phases := by
  obtain ⟨d, hst, hd⟩ := hpos.listener
  exact ⟨⟨d, by simpa using hst, hd⟩, fun cfd => by simpa using hpos.worker cfd, by simpa using hpos.signal, m,
    Function.update_self .., by simpa using hm⟩

/-- The operations of `main`, with the stage before and after. -/
theorem mainStage_next {m m' : MainStage} {o : HostOp} {ans : o.Ans} (hnext : m.next ⟨o, ans⟩ = some m') :
    aim o = none ∧ o ≠ .accept ∧ (m = .joining → o = .join) ∧ m' ≠ .joining := by
  cases m with
  | joining =>
      cases o <;> first | (cases hnext; done) | (cases hnext; exact ⟨rfl, nofun, fun _ => rfl, nofun⟩)
  | draining =>
      cases o with
      | loadActive =>
          rw [MainStage.next] at hnext
          cases hnext
          refine ⟨rfl, nofun, nofun, ?_⟩
          split_ifs <;> nofun
      | _ => first | (cases hnext; done) | (cases hnext; exact ⟨rfl, nofun, nofun, nofun⟩)
  | drained =>
      cases o <;> first | (cases hnext; done) | (cases hnext; exact ⟨rfl, nofun, nofun, nofun⟩)

end Parties

/-! ### Every reachable state -/

def startRole : Party → Role
  | .listener => .listener .opening
  | .worker cfd => .worker cfd .handed
  | .signal => .signal
  | .main => .main .joining

theorem kept_start (boot : Boot) : Kept boot.maxClients startRole [] boot.host := by
  refine ⟨fun _ => .absent,
    ⟨⟨.opening, rfl, nofun, nofun⟩, fun _ => rfl, rfl, .joining, rfl, fun h => absurd rfl h⟩, ?_⟩
  exact ⟨fun cfd => iff_of_true rfl (Nat.zero_le cfd), fun _ => rfl, fun _ => rfl, fun _ => rfl,
    Nat.add_zero _, rfl⟩

/-- A pool of the server whose threads keep to their roles and whose books are kept. -/
abbrev InOrder (maxClients : Nat) (pool : HostPool) (st : Party → Role) : Prop :=
  Pool.Monitored Role.next InRole EndsIn startRole (Kept maxClients) pool st

theorem InOrder.step {maxClients : Nat} {pool : HostPool} {st : Party → Role} (hpool : InOrder maxClients pool st)
    {i : Party} {o : HostOp} {next : o.Ans → HostProc (Place ⊕ ThreadEnd)} {r' : Role}
    (hgate : mayStep pool i = true)
    (hthread : pool.threads i = .busy (.op o next))
    (hmove : Role.next (st i) ⟨o, (hostHandler o (pool.locals i, pool.shared)).1⟩ = some r') :
    Kept maxClients (Function.update st i r')
      (pool.log ++ [(i, ⟨o, (hostHandler o (pool.locals i, pool.shared)).1⟩)])
      (hostHandler o (pool.locals i, pool.shared)).2.2 := by
  obtain ⟨phases, hpos, hbooks⟩ := hpool.holds
  cases i with
  | listener =>
      obtain ⟨d, hst, -⟩ := hpos.listener
      rw [hst] at hmove
      obtain ⟨d', hnext, rfl⟩ := Option.map_eq_some_iff.mp hmove
      exact Kept.listener hpos hbooks hst (deskMoves_of_next hnext)
  | worker cfd => exact Kept.worker hpos hbooks hgate hmove
  | signal =>
      rw [hpos.signal] at hmove
      have hsignal : aim o = none ∧ o ≠ .accept ∧ r' = .signal := by
        cases o <;> first | (cases hmove; done) | (cases hmove; exact ⟨rfl, nofun, rfl⟩)
      obtain ⟨haim, ho, rfl⟩ := hsignal
      rw [← hpos.signal, Function.update_eq_self]
      exact ⟨phases, hpos, hbooks.quiet _ (untouched_of_aim haim ho _ _) fun _ h => absurd haim h⟩
  | main =>
      obtain ⟨m, hm, hjoined⟩ := hpos.main
      rw [hm] at hmove
      obtain ⟨m', hnext, rfl⟩ := Option.map_eq_some_iff.mp hmove
      obtain ⟨haim, ho, hjoin, -⟩ := mainStage_next hnext
      refine ⟨phases, hpos.mains fun _ => ?_,
        hbooks.quiet _ (untouched_of_aim haim ho _ _) fun _ h => absurd haim h⟩
      by_cases hjoining : m = .joining
      · -- the gate of the join: the listener has finished
        cases hjoin hjoining
        rw [mayStep, hthread] at hgate
        obtain ⟨ending, hdone⟩ := Thread.finished_iff.mp hgate
        have htracks := hpool.tracks .listener
        rw [hdone] at htracks
        obtain ⟨d, hst, -⟩ := hpos.listener
        rw [hst] at htracks ⊢
        cases ending with
        | listener => exact htracks
        | worker why =>
            obtain ⟨cfd, hrole⟩ := htracks
            cases hrole
        | main =>
            obtain ⟨st', -, hrole⟩ := htracks
            cases hrole
      · exact hjoined hjoining

theorem server_inOrder (boot : Boot) (schedule : List Party) :
    ∃ st, InOrder boot.maxClients (boot.run schedule) st := by
  refine Pool.monitored (fun a r hr => hostBody_follows boot.cfg hr) (fun i => ?_) (kept_start boot)
    (fun pool st i o next r' hpool hgate hthread hmove => InOrder.step hpool hgate hthread hmove) schedule
  cases i <;> exact rfl

/-- The moment an entry of the log was written: the state before it, the role of who wrote it, and the answer. -/
theorem moment (boot : Boot) {schedule : List Party} {before after : List (Party × Event HostSig)} {i : Party}
    {e : Event HostSig} (hlog : (boot.run schedule).log = before ++ (i, e) :: after) :
    ∃ schedule' st phases r', (boot.run schedule').log = before ∧ mayStep (boot.run schedule') i = true ∧
      InOrder boot.maxClients (boot.run schedule') st ∧ Positions st phases ∧
      ConnBooks boot.maxClients phases before (boot.run schedule').shared ∧ Role.next (st i) e = some r' ∧
      e = ⟨e.op, (hostHandler e.op ((boot.run schedule').locals i, (boot.run schedule').shared)).1⟩ := by
  obtain ⟨schedule', j, o, next, hbefore, hgate, hthread, hentry⟩ := Pool.gatedRun_split mayStep _ _ rfl hlog
  obtain ⟨rfl, rfl⟩ := Prod.mk.inj hentry
  obtain ⟨st, hpool⟩ := server_inOrder boot schedule'
  obtain ⟨r', hmove, -⟩ := hpool.op (h := hostHandler) hthread
  obtain ⟨phases, hpos, hbooks⟩ := hpool.holds
  have hbooks' : ConnBooks boot.maxClients phases before (boot.run schedule').shared := hbefore ▸ hbooks
  exact ⟨schedule', st, phases, r', hbefore, hgate, hpool, hpos, hbooks', hmove, rfl⟩

end PulseLink
