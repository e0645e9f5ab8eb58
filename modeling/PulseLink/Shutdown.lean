import PulseLink.WorkerArgs

/-! The end of the server. `main` joins the listener, waits until it sees no active worker, and then closes the
sink and destroys the device table and the semaphore. A worker counts itself as active only once it runs, so the
count says nothing about one that has been created and has not run yet. -/

namespace PulseLink

/-- The operations that take from the workers what they use. -/
def Destroys : HostOp → Bool
  | .sinkClose | .dtDestroy | .semDestroy => true
  | _ => false

/-! ### Tallies along a log -/

theorem ConnTally.add_le (y : ConnTally) (e : Event HostSig) :
    y.posts ≤ (y.add e).posts ∧ y.resigned ≤ (y.add e).resigned := by
  obtain ⟨o, ans⟩ := e
  cases o with
  | malloc cfd | pthreadCreate cfd => cases ans <;> simp [ConnTally.add]
  | _ => simp [ConnTally.add]

theorem ConnTally.add_created (y : ConnTally) {e : Event HostSig} (he : ∀ k, e.op ≠ .pthreadCreate k) :
    (y.add e).created = y.created := by
  obtain ⟨o, ans⟩ := e
  cases o with
  | pthreadCreate k => exact absurd rfl (he k)
  | malloc k => cases ans <;> rfl
  | _ => rfl

/-- A log that goes on takes nothing back. -/
theorem tallyOf_append_le (log more : List (Party × Event HostSig)) (cfd : Nat) :
    (tallyOf log cfd).posts ≤ (tallyOf (log ++ more) cfd).posts ∧
      (tallyOf log cfd).resigned ≤ (tallyOf (log ++ more) cfd).resigned := by
  induction more using List.reverseRecOn with
  | nil =>
      rw [List.append_nil]
      exact ⟨Nat.le_refl _, Nat.le_refl _⟩
  | append_singleton more entry ih =>
      obtain ⟨i, e⟩ := entry
      rw [← List.append_assoc, tallyOf_concat]
      split_ifs
      · obtain ⟨hposts, hresigned⟩ := (tallyOf (log ++ more) cfd).add_le e
        exact ⟨ih.1.trans hposts, ih.2.trans hresigned⟩
      · exact ih

/-- Where no thread is created, none is counted. -/
theorem tallyOf_append_created (log : List (Party × Event HostSig)) {more : List (Party × Event HostSig)}
    (hmore : ∀ entry ∈ more, ∀ k, entry.2.op ≠ .pthreadCreate k) (cfd : Nat) :
    (tallyOf (log ++ more) cfd).created = (tallyOf log cfd).created := by
  induction more using List.reverseRecOn with
  | nil => rw [List.append_nil]
  | append_singleton more entry ih =>
      obtain ⟨i, e⟩ := entry
      have he : ∀ k, e.op ≠ .pthreadCreate k := hmore (i, e) (List.mem_append_right _ (List.mem_singleton_self _))
      rw [← List.append_assoc, tallyOf_concat,
        ← ih fun entry hentry => hmore entry (List.mem_append_left _ hentry)]
      split_ifs
      · exact ConnTally.add_created _ he
      · rfl

/-! ### After the join -/

section Shutdown

variable {boot : Boot} {schedule : List Party} {before after : List (Party × Event HostSig)} {i : Party}
  {e : Event HostSig}

/-- Only the listener creates threads. -/
theorem creates_listener (hlog : (boot.run schedule).log = before ++ (i, e) :: after) {k : Nat}
    (he : e.op = .pthreadCreate k) : i = .listener := by
  obtain ⟨_, st, phases, r', -, hgate, hpool, hpos, hbooks, hmove, -⟩ := moment boot hlog
  obtain ⟨o, ans⟩ := e
  cases he
  cases i with
  | listener => rfl
  | worker cfd =>
      have hspawned : (phases cfd).spawned = true := (hbooks.spawned cfd).symm.trans hgate
      rw [hpos.worker, if_pos hspawned, Role.next] at hmove
      split_ifs at hmove with haim
      obtain ⟨ph', hnext, -⟩ := Option.map_eq_some_iff.mp hmove
      generalize phases cfd = ph at hspawned hnext
      cases ph <;> first | (cases hspawned; done) | cases hnext
  | signal =>
      rw [hpos.signal] at hmove
      cases hmove
  | main =>
      obtain ⟨m, hm, -⟩ := hpos.main
      rw [hm] at hmove
      obtain ⟨m', hnext, -⟩ := Option.map_eq_some_iff.mp hmove
      obtain ⟨haim, -⟩ := mainStage_next hnext
      cases haim

theorem left_accepts {t : List (Event HostSig)} {r : Role} (haccepts : Role.next.Accepts (.listener .left) t r) :
    t = [] := by
  cases haccepts with
  | nil => rfl
  | @cons _ r₁ _ e _ hmove _ =>
      have hdesk : (Desk.left.next e).map Role.listener = some r₁ := hmove
      obtain ⟨d', hnext, -⟩ := Option.map_eq_some_iff.mp hdesk
      cases deskMoves_of_next hnext

/-- When `main` looks at the count, the listener is gone for good: no thread is created any more. -/
theorem no_creates_after_load {n : Int} {log rest : List (Party × Event HostSig)}
    (hlog : (boot.run schedule).log = log ++ (.main, ⟨.loadActive, n⟩) :: rest) :
    ∀ entry ∈ rest, ∀ k, entry.2.op ≠ .pthreadCreate k := by
  rintro ⟨j, e⟩ hmem k he
  obtain ⟨mid, tail, rfl⟩ := List.append_of_mem hmem
  have hcreate : (boot.run schedule).log = (log ++ (.main, ⟨.loadActive, n⟩) :: mid) ++ (j, e) :: tail := by
    rw [hlog]
    simp
  obtain rfl := creates_listener hcreate he
  obtain ⟨_, st, phases, r', hearlier, -, hpool, hpos, -, hmove, -⟩ := moment boot hlog
  obtain ⟨m, hm, hjoined⟩ := hpos.main
  have hleft : st .listener = .listener .left := by
    refine hjoined fun hjoining => ?_
    rw [hm, hjoining] at hmove
    cases hmove
  have hfirst := hpool.accepts .listener
  rw [hearlier, hleft] at hfirst
  obtain ⟨st', hpool'⟩ := server_inOrder boot schedule
  have hall := hpool'.accepts .listener
  rw [hlog] at hall
  have hevents : Pool.eventsOf (log ++ (.main, ⟨.loadActive, n⟩) :: (mid ++ (.listener, e) :: tail)) .listener =
      Pool.eventsOf log .listener ++ (Pool.eventsOf mid .listener ++ e :: Pool.eventsOf tail .listener) := by
    simp [Pool.eventsOf]
  rw [hevents] at hall
  obtain ⟨r₁, hsame, hrest⟩ := hall.split
  rw [hsame.unique hfirst] at hrest
  simpa using left_accepts hrest

/-- A worker that has counted itself and is not counted has given its slot back and resigned. -/
theorem ConnPhase.resigned_of_not_counted {ph : ConnPhase} (hstarted : 0 < ph.tally.started)
    (hcounted : ph.counted = false) :
    ph.tally.posts = 1 ∧ ph.tally.resigned = 1 := by
  cases ph <;> first | exact ⟨rfl, rfl⟩ | (cases hstarted; done) | cases hcounted

theorem ConnPhase.posts_le (ph : ConnPhase) : ph.tally.posts ≤ 1 ∧ ph.tally.resigned ≤ 1 := by
  cases ph <;> decide

/-- Where no worker is counted as active, every connection is past that or not there yet. -/
theorem ConnBooks.not_counted {maxClients : Nat} {phases : Nat → ConnPhase}
    {log : List (Party × Event HostSig)} {s : Host}
    (hbooks : ConnBooks maxClients phases log s) (hzero : s.ctx.activeWorkers ≤ 0) (cfd : Nat) :
    (phases cfd).counted = false := by
  by_cases habsent : phases cfd = .absent
  · rw [habsent]
    rfl
  have hsum : numberOf ConnPhase.counted phases s.accepted = 0 := by
    have hactive := hbooks.active
    omega
  have hcfd := (Finset.sum_eq_zero_iff.mp hsum) cfd (hbooks.mem_range habsent)
  cases hcounted : (phases cfd).counted with
  | false => rfl
  | true =>
      rw [hcounted] at hcfd
      cases hcfd

/-- When `main` sees no active worker and all created workers have counted themselves, they are through. -/
theorem drained_at_load {n : Int} {log rest : List (Party × Event HostSig)}
    (hlog : (boot.run schedule).log = log ++ (.main, ⟨.loadActive, n⟩) :: rest) (hn : n ≤ 0) {cfd : Nat}
    (hstarted : 0 < (tallyOf log cfd).started) : (tallyOf log cfd).posts = 1 ∧ (tallyOf log cfd).resigned = 1 := by
  obtain ⟨_, st, phases, r', -, -, -, -, hbooks, -, he⟩ := moment boot hlog
  have hload : n = (hostHandler .loadActive _).1 := eq_of_heq (Event.mk.inj he).2
  rw [hload] at hn
  rw [hbooks.tally cfd] at hstarted ⊢
  exact ConnPhase.resigned_of_not_counted hstarted (hbooks.not_counted hn cfd)

/-- At a later step of `main` they still are, and no other worker has been created since. -/
theorem drained_since_load {n : Int} {log rest : List (Party × Event HostSig)}
    (hlog : (boot.run schedule).log = (log ++ (.main, ⟨.loadActive, n⟩) :: rest) ++ (i, e) :: after) (hn : n ≤ 0)
    (hstarted : ∀ cfd, 0 < (tallyOf log cfd).created → 0 < (tallyOf log cfd).started) {cfd : Nat}
    (hcreated : 0 < (tallyOf (log ++ (.main, ⟨.loadActive, n⟩) :: rest) cfd).created) :
    (tallyOf (log ++ (.main, ⟨.loadActive, n⟩) :: rest) cfd).posts = 1 ∧
      (tallyOf (log ++ (.main, ⟨.loadActive, n⟩) :: rest) cfd).resigned = 1 := by
  have hload : (boot.run schedule).log = log ++ (.main, ⟨.loadActive, n⟩) :: (rest ++ (i, e) :: after) := by
    rw [hlog, List.append_assoc]
    rfl
  have hmore : ∀ entry ∈ (Party.main, (⟨.loadActive, n⟩ : Event HostSig)) :: rest, ∀ k,
      entry.2.op ≠ .pthreadCreate k := by
    intro entry hentry
    rcases List.mem_cons.mp hentry with rfl | hrest
    · nofun
    · exact no_creates_after_load hload entry (List.mem_append_left _ hrest)
  rw [tallyOf_append_created log hmore cfd] at hcreated
  obtain ⟨hposts, hresigned⟩ := drained_at_load hload hn (hstarted cfd hcreated)
  obtain ⟨hpostsLe, hresignedLe⟩ := tallyOf_append_le log ((.main, ⟨.loadActive, n⟩) :: rest) cfd
  -- the slot is posted once and the worker resigns once, so what was done at the load is all there is
  obtain ⟨_, _, phases, _, -, -, -, -, hbooks, -⟩ := moment boot hlog
  have honce := (phases cfd).posts_le
  rw [← hbooks.tally cfd] at honce
  exact ⟨Nat.le_antisymm honce.1 (hposts ▸ hpostsLe), Nat.le_antisymm honce.2 (hresigned ▸ hresignedLe)⟩

end Shutdown

/-- `main` destroys nothing while a worker that was created has not given its slot back and resigned. -/
def DrainsFirst (log : List (Party × Event HostSig)) : Prop :=
  ∀ before e after, log = before ++ (.main, e) :: after → Destroys e.op = true →
    ∀ cfd, 0 < (tallyOf before cfd).created → (tallyOf before cfd).posts = 1 ∧ (tallyOf before cfd).resigned = 1

/-- `main` leaves its drain loop because it sees no active worker, not because the time is up. -/
def LimitNotReached (log : List (Party × Event HostSig)) : Prop :=
  ∀ before e after, log = before ++ (.main, e) :: after → Destroys e.op = true →
    ∃ n : Int, n ≤ 0 ∧ (Party.main, (⟨.loadActive, n⟩ : Event HostSig)) ∈ before

/-- When `main` sees no active worker, every worker that was created has counted itself before. -/
def StartedByLoad (log : List (Party × Event HostSig)) : Prop :=
  ∀ before (n : Int) after, log = before ++ (.main, ⟨.loadActive, n⟩) :: after → n ≤ 0 →
    ∀ cfd, 0 < (tallyOf before cfd).created → 0 < (tallyOf before cfd).started

/-- **Shutdown after the workers.** In every run in which the workers created have counted themselves by the time
`main` sees no active worker, `main` destroys nothing before the workers are through. -/
theorem shutdown_drains (boot : Boot) (schedule : List Party) (hlimit : LimitNotReached (boot.run schedule).log)
    (hstarted : StartedByLoad (boot.run schedule).log) : DrainsFirst (boot.run schedule).log := by
  intro before e after hlog hdestroys cfd hcreated
  obtain ⟨n, hn, hload⟩ := hlimit before e after hlog hdestroys
  obtain ⟨log, rest, rfl⟩ := List.append_of_mem hload
  refine drained_since_load hlog hn (hstarted log n (rest ++ (.main, e) :: after) ?_ hn) hcreated
  rw [hlog, List.append_assoc]
  rfl

/-- Where in a log an entry stands. -/
theorem splits_at {log before after : List (Party × Event HostSig)} {i : Party} {e : Event HostSig}
    (hlog : log = before ++ (i, e) :: after) :
    before.length < log.length ∧ before = log.take before.length ∧
      (log.map fun x => (x.1, x.2.op))[before.length]? = some (i, e.op) := by
  subst hlog
  simp

/-- The worker runs to its end before the listener is stopped and `main` looks. -/
def lateEnd : List Party :=
  List.replicate 9 .listener ++ List.replicate 13 (.worker 0) ++ List.replicate 2 .signal ++
    List.replicate 5 .listener ++ List.replicate 8 .main

theorem shutdown_drains_lateEnd :
    LimitNotReached (oneClient.run lateEnd).log ∧ StartedByLoad (oneClient.run lateEnd).log ∧
      DrainsFirst (oneClient.run lateEnd).log := by
  have hlimit : LimitNotReached (oneClient.run lateEnd).log := by
    intro before e after hlog hdestroys
    obtain ⟨hlt, hbefore, hop⟩ := splits_at hlog
    have hlate : ∀ k < (oneClient.run lateEnd).log.length,
        ∀ x ∈ ((oneClient.run lateEnd).log.map fun x => (x.1, x.2.op))[k]?, Destroys x.2 = true → 25 ≤ k := by
      decide +kernel
    have hload : ((oneClient.run lateEnd).log.take 25).getLast? = some (.main, ⟨.loadActive, (0 : Int)⟩) := rfl
    refine ⟨0, le_refl _, hbefore ▸ ?_⟩
    exact List.take_subset_take_left _ (hlate _ hlt _ hop hdestroys) (List.mem_of_getLast? hload)
  have hstarted : StartedByLoad (oneClient.run lateEnd).log := by
    intro before n after hlog _ cfd hcreated
    obtain ⟨hlt, hbefore, hop⟩ := splits_at hlog
    have hat : ∀ k < (oneClient.run lateEnd).log.length,
        ((oneClient.run lateEnd).log.map fun x => (x.1, x.2.op))[k]? = some (.main, .loadActive) → k = 24 := by
      decide +kernel
    rw [hbefore, hat _ hlt hop] at hcreated ⊢
    cases cfd with
    | zero => exact Nat.one_pos
    | succ cfd => cases hcreated
  exact ⟨hlimit, hstarted, shutdown_drains oneClient lateEnd hlimit hstarted⟩

/-- The listener creates the thread and is stopped; `main` sees no active worker and goes on before the thread has
taken a step. -/
def earlyEnd : List Party :=
  List.replicate 9 .listener ++ List.replicate 2 .signal ++ List.replicate 5 .listener ++ List.replicate 6 .main

theorem closes_before_worker_runs :
    (oneClient.run earlyEnd).log.getLast? = some (.main, ⟨.sinkClose, ()⟩) ∧
      tallyOf (oneClient.run earlyEnd).log 0 = ⟨1, 1, 0, 0, 0, 0, 0⟩ ∧
      (Party.main, (⟨.loadActive, (0 : Int)⟩ : Event HostSig)) ∈ (oneClient.run earlyEnd).log ∧
      ¬ DrainsFirst (oneClient.run earlyEnd).log := by
  have hload : ((oneClient.run earlyEnd).log.take 15).getLast? = some (.main, ⟨.loadActive, (0 : Int)⟩) := rfl
  refine ⟨rfl, rfl, List.take_subset _ _ (List.mem_of_getLast? hload), fun hdrains => ?_⟩
  have hopen := hdrains ((oneClient.run earlyEnd).log.take 16) ⟨.sinkClose, ()⟩ [] rfl rfl 0 Nat.one_pos
  exact absurd hopen.1 (by decide)

end PulseLink
