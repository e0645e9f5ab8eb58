import PulseLink.Session
import PulseLink.Slots

/-! The life of a `worker_arg_t`. It is freed once, by the listener when no thread could be created, otherwise by
the worker. A worker reads it only before that. The listener reads it once more after it has handed it over, for
the line "accepted %s (worker spawned)", and nothing keeps the worker from being through by then. -/

namespace PulseLink

/-- The argument an event stores to or reads, and in what state it was. -/
def accessOf : Event HostSig → Option (Nat × ArgState)
  | ⟨.fillArg cfd, found⟩ => some (cfd, found)
  | ⟨.readArg cfd, found⟩ => some (cfd, found)
  | _ => none

def NoUseAfterFree (log : List (Party × Event HostSig)) : Prop :=
  ∀ entry ∈ log, ∀ cfd, accessOf entry.2 ≠ some (cfd, .freed)

/-- The listener writes its line about a connection before the worker has freed the argument. -/
def LogsInTime (log : List (Party × Event HostSig)) : Prop :=
  ∀ before cfd found after, log = before ++ (.listener, ⟨.readArg cfd, found⟩) :: after →
    (tallyOf before cfd).frees = 0

theorem ConnPhase.arg_freed_iff (ph : ConnPhase) : ph.arg = .freed ↔ ph.tally.frees ≠ 0 := by
  cases ph <;> decide

/-- Whoever has a connection and moves it finds its argument in place. -/
theorem Advances.arg_ne_freed {cfd k : Nat} {ph ph' : ConnPhase} {e : Event HostSig} {found : ArgState}
    (hadvances : Advances cfd ph e ph') (haccess : accessOf e = some (k, found)) : k = cfd ∧ ph.arg ≠ .freed := by
  cases hadvances <;> cases haccess <;> exact ⟨rfl, nofun⟩

/-- An access finds what the phase of the connection says. -/
theorem access_answer {e : Event HostSig} {conn : Conn} {s : Host} {cfd : Nat} {found : ArgState}
    (haccess : accessOf e = some (cfd, found)) (he : e = ⟨e.op, (hostHandler e.op (conn, s)).1⟩) :
    found = s.args cfd := by
  obtain ⟨o, ans⟩ := e
  cases o with
  | fillArg k =>
      cases haccess
      exact eq_of_heq (Event.mk.inj he).2
  | readArg k =>
      cases haccess
      exact eq_of_heq (Event.mk.inj he).2
  | _ => cases haccess

section Accesses

variable {boot : Boot} {schedule : List Party} {before after : List (Party × Event HostSig)} {i : Party}
  {e : Event HostSig} (hlog : (boot.run schedule).log = before ++ (i, e) :: after)

include hlog

/-- An access finds the argument freed exactly if there was a free before it. -/
theorem access_freed_iff {cfd : Nat} {found : ArgState} (haccess : accessOf e = some (cfd, found)) :
    found = .freed ↔ (tallyOf before cfd).frees ≠ 0 := by
  obtain ⟨_, st, phases, r', -, -, -, -, hbooks, -, he⟩ := moment boot hlog
  rw [access_answer haccess he, hbooks.args, hbooks.tally]
  exact (phases cfd).arg_freed_iff

/-- Only the listener can come too late, with its line. -/
theorem access_late {cfd : Nat} (haccess : accessOf e = some (cfd, .freed)) :
    i = .listener ∧ e = ⟨.readArg cfd, .freed⟩ := by
  obtain ⟨_, st, phases, r', -, hgate, hpool, hpos, hbooks, hmove, he⟩ := moment boot hlog
  have hfound : (phases cfd).arg = .freed := (hbooks.args cfd).symm.trans (access_answer haccess he).symm
  cases i with
  | worker k =>
      have hspawned : (phases k).spawned = true := (hbooks.spawned k).symm.trans hgate
      rw [hpos.worker, if_pos hspawned, Role.next] at hmove
      split_ifs at hmove with haim
      obtain ⟨ph', hnext, -⟩ := Option.map_eq_some_iff.mp hmove
      obtain ⟨rfl, hne⟩ := (advances_of_next haim hnext).arg_ne_freed haccess
      exact absurd hfound hne
  | listener =>
      obtain ⟨d, hst, hd⟩ := hpos.listener
      rw [hst] at hmove
      obtain ⟨d', hnext, -⟩ := Option.map_eq_some_iff.mp hmove
      cases deskMoves_of_next hnext with
      | advance hadvances =>
          obtain ⟨rfl, hne⟩ := hadvances.arg_ne_freed haccess
          obtain ⟨rfl, -⟩ := hd.hand _ _ rfl
          exact absurd hfound hne
      | log k found =>
          cases haccess
          exact ⟨rfl, rfl⟩
      | _ => cases haccess
  | signal =>
      rw [hpos.signal] at hmove
      obtain ⟨o, ans⟩ := e
      cases o <;> first | (cases hmove; done) | cases haccess
  | main =>
      obtain ⟨m, hm, -⟩ := hpos.main
      rw [hm] at hmove
      obtain ⟨m', hnext, -⟩ := Option.map_eq_some_iff.mp hmove
      obtain ⟨haim, -⟩ := mainStage_next hnext
      obtain ⟨o, ans⟩ := e
      cases o <;> first | (cases haim; done) | cases haccess

end Accesses

theorem ConnPhase.frees_le (ph : ConnPhase) : ph.tally.frees ≤ ph.tally.allocated ∧ ph.tally.allocated ≤ 1 := by
  cases ph <;> decide

theorem ConnPhase.freed_of_not_created {ph : ConnPhase} (hlistener : ph.withListener = false)
    (hcreated : ph.tally.created = 0) : ph.tally.frees = ph.tally.allocated := by
  cases ph <;> first | rfl | (cases hcreated; done) | cases hlistener

/-- **The life of an argument.** Every `worker_arg_t` is freed at most once, and has been freed once the listener
has gone on and the worker, if there is one, has left. No access comes after the free exactly if the listener
always writes its line before the worker is through. -/
theorem worker_arg_life (boot : Boot) (schedule : List Party) :
    let pool := boot.run schedule
    (∀ cfd, (tallyOf pool.log cfd).frees ≤ (tallyOf pool.log cfd).allocated ∧
      (tallyOf pool.log cfd).allocated ≤ 1 ∧
      (Disposed pool cfd → (tallyOf pool.log cfd).frees = (tallyOf pool.log cfd).allocated)) ∧
    (NoUseAfterFree pool.log ↔ LogsInTime pool.log) := by
  intro pool
  obtain ⟨st, hpool⟩ := server_inOrder boot schedule
  obtain ⟨phases, hpos, hbooks⟩ := hpool.holds
  refine ⟨fun cfd => ?_, ⟨fun hnone => ?_, fun hintime => ?_⟩⟩
  · rw [hbooks.tally cfd]
    refine ⟨(phases cfd).frees_le.1, (phases cfd).frees_le.2, fun hdisposed => ?_⟩
    rcases InOrder.disposed hpool hpos hbooks hdisposed with ⟨hlistener, hcreated⟩ | hgone
    · exact ConnPhase.freed_of_not_created hlistener hcreated
    · rw [hgone]
      rfl
  · intro before cfd found after hlog
    by_contra hfrees
    have hfound : found = .freed := (access_freed_iff hlog rfl).mpr hfrees
    refine hnone (.listener, ⟨.readArg cfd, found⟩) ?_ cfd (congrArg (fun f => some (cfd, f)) hfound)
    rw [hlog]
    exact List.mem_append_right _ List.mem_cons_self
  · rintro ⟨i, e⟩ hmem cfd haccess
    obtain ⟨before, after, hlog⟩ := List.append_of_mem hmem
    obtain ⟨rfl, rfl⟩ := access_late hlog haccess
    exact (access_freed_iff hlog haccess).mp rfl (hintime before cfd .freed after hlog)

/-- A server for one client, whose only connection is closed by the peer at once. -/
def oneClient : Boot where
  cfg := ⟨.little, none⟩
  maxClients := 1
  payloads _ := zeroPayload
  conns _ := scripted []
  ctx := freshServer
  choices := ⟨[], [.ready false true], [], [], []⟩

/-- The listener creates the thread, the worker runs to its end, and the listener goes on. -/
def lateLine : List Party :=
  List.replicate 9 .listener ++ List.replicate 12 (.worker 0) ++ [.listener]

theorem line_after_free :
    (oneClient.run lateLine).log.getLast? = some (.listener, ⟨.readArg 0, .freed⟩) ∧
      ¬ NoUseAfterFree (oneClient.run lateLine).log := by
  have hlast : (oneClient.run lateLine).log.getLast? = some (.listener, ⟨.readArg 0, .freed⟩) := rfl
  exact ⟨hlast, fun hnone => hnone _ (List.mem_of_getLast? hlast) 0 rfl⟩

end PulseLink
