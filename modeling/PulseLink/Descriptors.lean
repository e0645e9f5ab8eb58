import PulseLink.WorkerArgs

/-! Who uses the descriptor of a connection, and when. Descriptor numbers are given out again once they are closed,
so an operation on a closed one would reach another client. Every operation on the descriptor of a connection comes
after its `accept` and before its only `close`, and is performed by the listener until the thread has been created
and by the worker from then on. -/

namespace PulseLink

/-! ### What the tallies say about the log -/

theorem tallyOf_closes {log : List (Party × Event HostSig)} {j : Party} {cfd : Nat} {u : Unit}
    (hmem : (j, ⟨.close cfd, u⟩) ∈ log) : (tallyOf log cfd).closes ≠ 0 := by
  induction log using List.reverseRecOn with
  | nil => cases hmem
  | append_singleton log entry ih =>
      obtain ⟨i, e⟩ := entry
      rw [tallyOf_concat]
      rcases List.mem_append.mp hmem with hbefore | hlast
      · have hpos := ih hbefore
        split_ifs
        · obtain ⟨o, ans⟩ := e
          cases o with
          | malloc k | pthreadCreate k => cases ans <;> exact hpos
          | close k => exact Nat.succ_ne_zero _
          | _ => exact hpos
        · exact hpos
      · cases List.mem_singleton.mp hlast
        rw [if_pos (show aim (.close cfd) = some cfd from rfl)]
        exact Nat.succ_ne_zero _

theorem tallyOf_created_iff {log : List (Party × Event HostSig)} {cfd : Nat} :
    (tallyOf log cfd).created ≠ 0 ↔ ∃ j, (j, ⟨.pthreadCreate cfd, true⟩) ∈ log := by
  induction log using List.reverseRecOn with
  | nil => exact ⟨fun h => absurd rfl h, fun ⟨_, hmem⟩ => absurd hmem List.not_mem_nil⟩
  | append_singleton log entry ih =>
      obtain ⟨i, e⟩ := entry
      rw [tallyOf_concat]
      have hsplit : (∃ j, (j, (⟨.pthreadCreate cfd, true⟩ : Event HostSig)) ∈ log ++ [(i, e)]) ↔
          (∃ j, (j, (⟨.pthreadCreate cfd, true⟩ : Event HostSig)) ∈ log) ∨ e = ⟨.pthreadCreate cfd, true⟩ := by
        constructor
        · rintro ⟨j, hmem⟩
          rcases List.mem_append.mp hmem with hbefore | hlast
          · exact .inl ⟨j, hbefore⟩
          · cases List.mem_singleton.mp hlast
            exact .inr rfl
        · rintro (⟨j, hbefore⟩ | rfl)
          · exact ⟨j, List.mem_append_left _ hbefore⟩
          · exact ⟨i, List.mem_append_right _ (List.mem_singleton.mpr rfl)⟩
      rw [hsplit, ← ih]
      obtain ⟨o, ans⟩ := e
      split_ifs with haim
      · cases o with
        | pthreadCreate k =>
            cases haim
            cases ans with
            | true => exact iff_of_true (Nat.succ_ne_zero _) (.inr rfl)
            | false => exact ⟨.inl, fun h => h.elim id fun heq => by cases heq⟩
        | malloc k => cases ans <;> exact ⟨.inl, fun h => h.elim id fun heq => by cases heq⟩
        | _ => exact ⟨.inl, fun h => h.elim id fun heq => by cases heq⟩
      · refine ⟨.inl, fun h => h.elim id fun heq => ?_⟩
        rw [heq] at haim
        exact absurd rfl haim

/-- Only an `accept` that succeeds makes a new connection. -/
theorem hostHandler_accepted (o : HostOp) (conn : Conn) (s : Host) :
    (hostHandler o (conn, s)).2.2.accepted = s.accepted ∨
      ((⟨o, (hostHandler o (conn, s)).1⟩ : Event HostSig) = ⟨.accept, some s.accepted⟩ ∧
        (hostHandler o (conn, s)).2.2.accepted = s.accepted + 1) := by
  cases o with
  | accept =>
      simp only [hostHandler]
      split_ifs
      · exact .inr ⟨rfl, rfl⟩
      · exact .inl rfl
  | serve k o => cases o <;> exact .inl rfl
  | poll =>
      simp only [hostHandler]
      split <;> exact .inl rfl
  | semTrywait k | malloc k | pthreadCreate k =>
      simp only [hostHandler]
      split_ifs <;> exact .inl rfl
  | _ => exact .inl rfl

/-- Every connection was accepted. -/
theorem accepted_logged (boot : Boot) (schedule : List Party) {cfd : Nat}
    (hcfd : cfd < (boot.run schedule).shared.accepted) : ∃ j, (j, ⟨.accept, some cfd⟩) ∈ (boot.run schedule).log := by
  induction schedule using List.reverseRecOn generalizing cfd with
  | nil => exact absurd hcfd (Nat.not_lt_zero _)
  | append_singleton schedule i ih =>
      rw [Boot.run, Pool.gatedRun_concat, ← Boot.run, Pool.gatedStep] at hcfd ⊢
      generalize boot.run schedule = pool at hcfd ih ⊢
      split_ifs at hcfd ⊢ with hgate
      swap
      · exact ih hcfd
      rcases Pool.step_cases (hostBody boot.cfg) hostHandler pool i with ⟨-, hshared, hlog⟩ | ⟨o, next, -, hstep⟩
      · rw [hshared] at hcfd
        rw [hlog]
        exact ih hcfd
      · rw [hstep] at hcfd ⊢
        have hcases : cfd < pool.shared.accepted ∨
            (⟨o, (hostHandler o (pool.locals i, pool.shared)).1⟩ : Event HostSig) = ⟨.accept, some cfd⟩ := by
          rcases hostHandler_accepted o (pool.locals i) pool.shared with hsame | ⟨hnew, hnext⟩
          · exact .inl (hsame ▸ hcfd)
          · rcases Nat.lt_succ_iff_lt_or_eq.mp (hnext ▸ hcfd) with hbefore | rfl
            · exact .inl hbefore
            · exact .inr hnew
        rcases hcases with hbefore | hnew
        · obtain ⟨j, hmem⟩ := ih hbefore
          exact ⟨j, List.mem_append_left _ hmem⟩
        · exact ⟨i, List.mem_append_right _ (List.mem_singleton.mpr (by rw [hnew]))⟩

/-! ### Ownership -/

/-- Whoever uses the descriptor has the connection, and has not closed it. -/
theorem Advances.descriptor {cfd : Nat} {ph ph' : ConnPhase} {e : Event HostSig} (hadvances : Advances cfd ph e ph')
    (huse : onDescriptor cfd e.op = true) :
    ph.tally.closes = 0 ∧
      ((ph.tally.created = 0 ∧ ph.spawned = false) ∨ (ph.tally.created ≠ 0 ∧ ph.spawned = true)) := by
  cases hadvances with
  | serve ho ans => exact ⟨rfl, .inr ⟨by decide, rfl⟩⟩
  | turnAway | drop | closeNoThread => exact ⟨rfl, .inl ⟨rfl, rfl⟩⟩
  | close => exact ⟨rfl, .inr ⟨by decide, rfl⟩⟩
  | _ => cases huse

/-- **Descriptors have one user at a time.** Whenever a thread reads from, writes to or closes the descriptor of a
connection, the connection has been accepted, its descriptor has not been closed, and the thread is the connection's
worker if one has been created, and the listener otherwise. -/
theorem descriptor_owned (boot : Boot) (schedule : List Party) (before after : List (Party × Event HostSig)) (i : Party)
    (e : Event HostSig) (hlog : (boot.run schedule).log = before ++ (i, e) :: after) (cfd : Nat)
    (huse : onDescriptor cfd e.op = true) :
    (∃ j, (j, ⟨.accept, some cfd⟩) ∈ before) ∧ (∀ j u, (j, ⟨.close cfd, u⟩) ∉ before) ∧
      ((i = .worker cfd ∧ ∃ j, (j, ⟨.pthreadCreate cfd, true⟩) ∈ before) ∨
        (i = .listener ∧ ∀ j, (j, ⟨.pthreadCreate cfd, true⟩) ∉ before)) := by
  obtain ⟨schedule', st, phases, r', hbefore, hgate, -, hpos, hbooks, hmove, -⟩ := moment boot hlog
  obtain ⟨ph', hadvances, hparty⟩ := descriptor_party hgate hpos hbooks hmove huse
  obtain ⟨hopen, hcreated⟩ := hadvances.descriptor huse
  refine ⟨?_, fun j u hclosed => tallyOf_closes hclosed (by rw [hbooks.tally]; exact hopen), ?_⟩
  · rw [← hbefore]
    exact accepted_logged boot schedule' (Nat.not_le.mp fun hle =>
      hadvances.ne_absent.1 ((hbooks.absent cfd).mpr hle))
  · rcases hparty with ⟨rfl, hspawned⟩ | ⟨rfl, hspawned⟩
    · refine .inl ⟨rfl, tallyOf_created_iff.mp ?_⟩
      rw [hbooks.tally]
      rcases hcreated with ⟨-, hnot⟩ | ⟨hpos, -⟩
      · rw [hspawned] at hnot
        cases hnot
      · exact hpos
    · refine .inr ⟨rfl, fun j hmem => ?_⟩
      have hpos := tallyOf_created_iff.mpr ⟨j, hmem⟩
      rw [hbooks.tally] at hpos
      rcases hcreated with ⟨hzero, -⟩ | ⟨-, hyes⟩
      · exact hpos hzero
      · rw [hspawned] at hyes
        cases hyes

/-- The worker of the only client closes its descriptor. -/
theorem descriptor_owned_close :
    ∃ before after, (oneClient.run lateLine).log = before ++ (.worker 0, ⟨.close 0, ()⟩) :: after ∧
      (∃ j, (j, ⟨.accept, some 0⟩) ∈ before) ∧ ∀ j u, (j, ⟨.close 0, u⟩) ∉ before := by
  have hentry : (oneClient.run lateLine).log[13]? = some (.worker 0, ⟨.close 0, ()⟩) := rfl
  obtain ⟨before, after, hlog⟩ := List.append_of_mem (List.mem_of_getElem? hentry)
  obtain ⟨haccepted, hopen, -⟩ := descriptor_owned oneClient lateLine before after _ _ hlog 0 rfl
  exact ⟨before, after, hlog, haccepted, hopen⟩

end PulseLink
