import PulseLink.WorkerArgs

/-! What a stop still lets through. The listener accepts and a worker decides about a packet only in a turn in which
it has found `running` set, and once in that turn. `running` is never set again. So after a stop no thread finds the
server running any more, the listener accepts at most one more connection and each worker decides about at most one
more packet, wherever the stop found them. -/

namespace PulseLink

open Proc

/-! ### One piece of work for each look at `running` -/

/-- Whether a worker may decide about a packet: it has found the server running and has not decided since. -/
def mayDecide : Monitor ServerSig Bool
  | _, ⟨.loadRunning, running⟩ => some running
  | g, ⟨.decided _ _, _⟩ => if g then some false else none
  | g, _ => some g

/-- The accepting of a connection, or the decision about a packet. -/
def startsWork : HostOp → Bool
  | .accept | .serve _ (.decided _ _) => true
  | _ => false

/-- The answer of a look at `running`. -/
def sawRunning : Event HostSig → Option Bool
  | ⟨.loadRunning, running⟩ => some running
  | ⟨.serve _ .loadRunning, running⟩ => some running
  | _ => none

/-- Whether a thread may start on something. -/
def mayStart : Monitor HostSig Bool
  | _, ⟨.loadRunning, running⟩ => some running
  | _, ⟨.serve _ .loadRunning, running⟩ => some running
  | g, ⟨.accept, _⟩ => if g then some false else none
  | g, ⟨.serve _ (.decided _ _), _⟩ => if g then some false else none
  | g, _ => some g

/-- The moves of the monitor. -/
inductive Starts : Bool → Event HostSig → Bool → Prop where
  | look {g : Bool} {e : Event HostSig} (running : Bool) (he : sawRunning e = some running)
      (hidle : startsWork e.op = false) : Starts g e running
  | work {e : Event HostSig} (he : startsWork e.op = true) (hblind : sawRunning e = none) : Starts true e false
  | other {g : Bool} {e : Event HostSig} (hidle : startsWork e.op = false) (hblind : sawRunning e = none) :
      Starts g e g

theorem starts_of_mayStart {g g' : Bool} {e : Event HostSig} (hmove : mayStart g e = some g') : Starts g e g' := by
  obtain ⟨o, ans⟩ := e
  cases o with
  | loadRunning =>
      cases hmove
      exact .look g' rfl rfl
  | accept =>
      cases g with
      | false => cases hmove
      | true =>
          cases hmove
          exact .work rfl rfl
  | serve k o =>
      cases o with
      | loadRunning =>
          cases hmove
          exact .look g' rfl rfl
      | decided h v =>
          cases g with
          | false => cases hmove
          | true =>
              cases hmove
              exact .work rfl rfl
      | _ =>
          cases hmove
          exact .other rfl rfl
  | _ =>
      cases hmove
      exact .other rfl rfl

/-! ### The threads -/

theorem acts_mayDecide {dev : Option Nat} (g : Bool) (o : ServerOp) (ans : o.Ans) (ho : Acts dev o) :
    mayDecide g ⟨o, ans⟩ = some g := by
  cases o <;> first | rfl | exact ho.elim

/-- Nothing is asked of the state in which a turn ends. -/
abbrev Anyhow {α : Type} : Bool → α → Prop := fun _ _ => True

theorem acts_follows {α : Type} {dev : Option Nat} {p : ServerProc α} (hp : p.Uses (Acts dev)) (g : Bool) :
    p.Follows mayDecide Anyhow g :=
  (Within.follows (acts_mayDecide g) hp).mono fun _ _ _ => trivial

section Turn

variable (cfg : Config) (l : Locals) (h : PlHeader)

theorem strikeOut_decides (e : PlError) : (strikeOut cfg l h e).Follows mayDecide Anyhow true := by
  refine Follows.perform fun _ => ⟨false, rfl, ?_⟩
  exact (acts_follows (reject_minor cfg l h e).plain.acts false).bind fun _ _ _ => trivial

theorem checkPayload_decides : (checkPayload cfg l h).Follows mayDecide Anyhow true := by
  rw [checkPayload]
  split_ifs
  · exact strikeOut_decides cfg l h .badChecksum
  · exact Follows.perform fun _ => ⟨false, rfl, acts_follows (dispatch_acts cfg l h) false⟩

theorem clientTurn_decides (g : Bool) : (clientTurn cfg l).Follows mayDecide Anyhow g := by
  refine clientTurn_rule (fun running => running) (fun _ => true) (fun _ => rfl) trivial (fun _ => trivial)
    (fun _ _ => rfl) (fun _ _ => trivial) (fun _ _ _ _ _ => trivial) fun _ bs _ => ?_
  exact handleHeader_rule (fun _ => true) (fun e _ => strikeOut_decides cfg _ _ e) (fun _ _ _ => rfl)
    (fun _ _ _ => trivial) (fun _ _ _ => checkPayload_decides cfg _ _) fun _ _ => checkPayload_decides cfg _ _

end Turn

theorem hosted_starts (cfd : Nat) (o : ServerOp) (g : Bool) (hmoves : ∀ ans, ∃ g', mayDecide g ⟨o, ans⟩ = some g') :
    (hosted cfd o).Follows mayStart (fun g' ans => mayDecide g ⟨o, ans⟩ = some g') g := by
  cases o with
  | decided h v =>
      intro ans
      obtain ⟨g', hmove⟩ := hmoves ans
      exact ⟨g', hmove, hmove⟩
  | freeArg => exact fun _ => ⟨g, rfl, fun _ => ⟨g, rfl, rfl⟩⟩
  | loadRunning => exact fun ans => ⟨ans, rfl, rfl⟩
  | _ => exact fun ans => ⟨g, rfl, rfl⟩

theorem workerThread_starts (cfg : Config) (cfd : Nat) (pc : WorkerPc) (g : Bool) :
    (workerThread cfg cfd pc).Follows mayStart Anyhow g := by
  have hturn : ∀ pc g, (clientWorker cfg pc).Follows mayDecide Anyhow g := by
    intro pc g
    cases pc with
    | enter payload => exact fun _ => ⟨g, rfl, trivial⟩
    | running l => exact (clientTurn_decides cfg l g).bind fun _ _ _ => trivial
    | leave why => exact fun _ => ⟨g, rfl, fun _ => ⟨g, rfl, fun _ => ⟨g, rfl, fun _ => ⟨g, rfl, trivial⟩⟩⟩⟩
  cases pc with
  | enter payload => exact fun _ => ⟨g, rfl, (hturn _ g).expand (hosted_starts cfd)⟩
  | running l =>
      refine ((hturn _ g).expand (hosted_starts cfd)).bind fun g' x _ => ?_
      cases x with
      | inl pc => exact fun _ => ⟨g', rfl, trivial⟩
      | inr why => trivial
  | leave why => exact (hturn _ g).expand (hosted_starts cfd)

/-- The operations that neither look at `running` nor start anything. -/
def KeepsLeave (o : HostOp) : Prop := ∀ (g : Bool) (ans : o.Ans), mayStart g ⟨o, ans⟩ = some g

theorem keepsLeave_follows {α : Type} {p : HostProc α} (hp : p.Uses KeepsLeave) (g : Bool) :
    p.Follows mayStart Anyhow g :=
  (Within.follows (fun _ ans ho => ho g ans) hp).mono fun _ _ _ => trivial

theorem acceptClient_keepsLeave (cfd : Nat) : (acceptClient cfd).Uses KeepsLeave := by
  refine Within.perform (fun _ _ => rfl) fun slot => ?_
  split_ifs
  · exact Within.perform (fun _ _ => rfl) fun _ => trivial
  refine Within.perform (fun _ _ => rfl) fun ok => ?_
  split_ifs
  · exact Within.perform (fun _ _ => rfl) fun _ => Within.perform (fun _ _ => rfl) fun _ => trivial
  refine Within.perform (fun _ _ => rfl) fun _ => Within.perform (fun _ _ => rfl) fun created => ?_
  split_ifs
  · exact Within.perform (fun _ _ => rfl) fun _ => Within.perform (fun _ _ => rfl) fun _ =>
      Within.perform (fun _ _ => rfl) fun _ => trivial
  · exact Within.perform (fun _ _ => rfl) fun _ => trivial

theorem stopListening_starts (g : Bool) : stopListening.Follows mayStart Anyhow g := fun _ => ⟨g, rfl, trivial⟩

theorem tcpListenerThread_starts (pc : ListenPc) (g : Bool) : (tcpListenerThread pc).Follows mayStart Anyhow g := by
  cases pc with
  | start =>
      refine Follows.perform fun ok => ⟨g, rfl, ?_⟩
      split_ifs
      · trivial
      · exact fun _ => ⟨g, rfl, trivial⟩
  | accepting =>
      refine Follows.perform fun running => ⟨running, rfl, ?_⟩
      cases running with
      | false => exact stopListening_starts false
      | true =>
          rw [if_neg (show ¬ true = false by decide)]
          refine Follows.perform fun pr => ⟨true, rfl, ?_⟩
          cases pr with
          | eintr => trivial
          | error => exact stopListening_starts true
          | ready pipe conn =>
              simp only
              split_ifs
              · exact stopListening_starts true
              · trivial
              · refine Follows.perform fun cfd => ⟨false, rfl, ?_⟩
                cases cfd with
                | none => trivial
                | some cfd =>
                    exact (keepsLeave_follows (acceptClient_keepsLeave cfd) false).bind fun _ _ _ => trivial

theorem mainThread_starts (pc : MainPc) (g : Bool) : (mainThread pc).Follows mayStart Anyhow g := by
  cases pc with
  | join => exact fun _ => ⟨g, rfl, trivial⟩
  | drain waitedMs =>
      refine Follows.perform fun active => ⟨g, rfl, ?_⟩
      split_ifs <;> trivial
  | tidy => exact fun _ => ⟨g, rfl, fun _ => ⟨g, rfl, fun _ => ⟨g, rfl, fun _ => ⟨g, rfl, trivial⟩⟩⟩⟩

/-- **Every thread** starts on something only after it has found the server running, and once. -/
theorem hostBody_starts (cfg : Config) (place : Place) (g : Bool) :
    (hostBody cfg place).Follows mayStart (Monitor.Turned (fun _ _ => True) fun _ _ => True) g := by
  have hends : ∀ (g : Bool) (x : Place ⊕ ThreadEnd), Monitor.Turned (fun _ _ => True) (fun _ _ => True) g x := by
    intro g x
    cases x <;> trivial
  cases place with
  | listener pc => exact (tcpListenerThread_starts pc g).bind fun g' x _ => hends g' _
  | worker cfd pc => exact (workerThread_starts cfg cfd pc g).bind fun g' x _ => hends g' _
  | signal => exact fun _ => ⟨g, rfl, fun _ => ⟨g, rfl, trivial⟩⟩
  | main pc => exact (mainThread_starts pc g).bind fun g' x _ => hends g' _

/-! ### After the stop -/

def isStop (entry : Party × Event HostSig) : Bool := entry.2.op = .storeStopped

/-- The log behind the first stop. -/
def afterStop : List (Party × Event HostSig) → List (Party × Event HostSig)
  | [] => []
  | entry :: log => if isStop entry then log else afterStop log

theorem afterStop_concat (log : List (Party × Event HostSig)) (entry : Party × Event HostSig) :
    afterStop (log ++ [entry]) = if log.any isStop then afterStop log ++ [entry] else [] := by
  induction log with
  | nil =>
      show (if isStop entry then [] else []) = []
      rw [ite_self]
  | cons first log ih =>
      rw [List.cons_append, afterStop, afterStop, ih, List.any_cons]
      cases isStop first with
      | true => rfl
      | false => rw [Bool.false_or, if_neg Bool.false_ne_true, if_neg Bool.false_ne_true]

/-- What follows any stop follows the first. -/
theorem suffix_afterStop {log before after : List (Party × Event HostSig)} {entry : Party × Event HostSig}
    (hstop : isStop entry = true) (hlog : log = before ++ entry :: after) : after <:+ afterStop log := by
  subst hlog
  induction before with
  | nil =>
      rw [List.nil_append, afterStop, if_pos hstop]
  | cons first before ih =>
      rw [List.cons_append, afterStop]
      split_ifs
      · exact ⟨before ++ [entry], by rw [List.append_assoc]; rfl⟩
      · exact ih

/-- What thread `i` has started in a part of the log. -/
def started (i : Party) (log : List (Party × Event HostSig)) : List (Party × Event HostSig) :=
  log.filter fun entry => entry.1 = i && startsWork entry.2.op

/-- Once the server is stopped: `running` stays clear, nobody has seen it set, and what a thread has started and what
it may start are at most one together. -/
def Stopped (st : Party → Bool) (log : List (Party × Event HostSig)) (s : Host) : Prop :=
  log.any isStop = true → s.running = false ∧ (∀ entry ∈ afterStop log, sawRunning entry.2 ≠ some true) ∧
    ∀ i, (started i (afterStop log)).length + (st i).toNat ≤ 1

/-- Nothing sets `running`. -/
theorem hostHandler_stays_stopped (o : HostOp) (conn : Conn) {s : Host} (hs : s.running = false) :
    (hostHandler o (conn, s)).2.2.running = false := by
  cases o with
  | serve k o => cases o <;> exact hs
  | poll =>
      simp only [hostHandler]
      split <;> exact hs
  | accept | semTrywait _ | malloc _ | pthreadCreate _ =>
      simp only [hostHandler]
      split_ifs <;> exact hs
  | storeStopped => rfl
  | _ => exact hs

/-- A look at `running` shows what it is. -/
theorem sawRunning_answer {o : HostOp} {conn : Conn} {s : Host} {running : Bool}
    (hsaw : sawRunning ⟨o, (hostHandler o (conn, s)).1⟩ = some running) : running = s.running := by
  cases o with
  | serve k o =>
      cases o with
      | loadRunning => exact (Option.some.inj hsaw).symm
      | _ => cases hsaw
  | loadRunning => exact (Option.some.inj hsaw).symm
  | _ => cases hsaw

theorem Stopped.step {st : Party → Bool} {log : List (Party × Event HostSig)} {s : Host} (hstopped : Stopped st log s)
    {i : Party} {o : HostOp} {conn : Conn} {g : Bool}
    (hmove : mayStart (st i) ⟨o, (hostHandler o (conn, s)).1⟩ = some g) :
    Stopped (Function.update st i g) (log ++ [(i, ⟨o, (hostHandler o (conn, s)).1⟩)])
      (hostHandler o (conn, s)).2.2 := by
  intro hany
  rw [List.any_append, Bool.or_eq_true] at hany
  rw [afterStop_concat]
  by_cases hbefore : log.any isStop = true
  · obtain ⟨hclear, hblind, hcount⟩ := hstopped hbefore
    rw [if_pos hbefore]
    refine ⟨hostHandler_stays_stopped o conn hclear, ?_, ?_⟩
    · intro entry hentry
      rcases List.mem_append.mp hentry with hold | hnew
      · exact hblind entry hold
      · rw [List.mem_singleton.mp hnew]
        intro htrue
        have hset := sawRunning_answer htrue
        rw [hclear] at hset
        cases hset
    · intro j
      have hj := hcount j
      rw [started, List.filter_append, List.length_append, ← started]
      by_cases hij : j = i
      · subst hij
        rw [Function.update_self]
        generalize st j = was at hmove hj
        cases starts_of_mayStart hmove with
        | look running he hidle =>
            rw [sawRunning_answer he, hclear]
            simp only [hidle, Bool.and_false, List.filter_cons, List.filter_nil]
            simp only [Bool.false_eq_true, if_false, List.length_nil, Bool.toNat_false]
            omega
        | work he hnone =>
            simp only [he, decide_true, Bool.and_true, List.filter_cons, List.filter_nil, if_true,
              List.length_singleton,
              Bool.toNat_false, Bool.toNat_true] at hj ⊢
            omega
        | other hidle hnone =>
            simp only [hidle, Bool.and_false, List.filter_cons, List.filter_nil]
            simpa using hj
      · rw [Function.update_of_ne hij]
        have hother : (decide (i = j) && startsWork o) = false := by
          rw [decide_eq_false fun h => hij h.symm, Bool.false_and]
        simp only [List.filter_cons, List.filter_nil, hother]
        simpa using hj
  · have hnow : o = .storeStopped := by
      rcases hany with hold | hnew
      · exact absurd hold hbefore
      · simpa [isStop] using hnew
    subst hnow
    rw [if_neg hbefore]
    refine ⟨rfl, fun entry hentry => absurd hentry List.not_mem_nil, fun j => ?_⟩
    simp only [started, List.filter_nil, List.length_nil, Nat.zero_add]
    cases Function.update st i g j <;> decide

theorem server_stopped (boot : Boot) (schedule : List Party) :
    ∃ st, Stopped st (boot.run schedule).log (boot.run schedule).shared := by
  have hstart : Stopped (fun _ => false) [] boot.host := fun hany => by cases hany
  suffices hrun : ∃ st, Pool.Monitored mayStart (fun _ _ => True) (fun _ _ => True) (fun _ => false) Stopped
      (boot.run schedule) st by
    obtain ⟨st, hpool⟩ := hrun
    exact ⟨st, hpool.holds⟩
  refine Pool.monitored (fun place g _ => hostBody_starts boot.cfg place g) (fun _ => trivial) hstart ?_ schedule
  intro pool st i o next g hpool _ _ hmove
  exact Stopped.step hpool.holds hmove

/-- **A stop is prompt.** After a stop, by the signal or because there is no socket to listen on, no thread of the
server finds it running, and each starts at most one more thing: the listener accepts at most one more connection
and each worker decides about at most one more packet. -/
theorem stop_prompt (boot : Boot) (schedule : List Party) (before after : List (Party × Event HostSig)) (i : Party)
    (u : Unit) (hlog : (boot.run schedule).log = before ++ (i, ⟨.storeStopped, u⟩) :: after) :
    (∀ entry ∈ after, sawRunning entry.2 ≠ some true) ∧ ∀ j, (started j after).length ≤ 1 := by
  obtain ⟨st, hstopped⟩ := server_stopped boot schedule
  have hsuffix := suffix_afterStop (show isStop (i, ⟨.storeStopped, u⟩) = true from rfl) hlog
  have hany : (boot.run schedule).log.any isStop = true := by
    rw [hlog, List.any_append, List.any_cons]
    exact Bool.or_eq_true_iff.mpr (.inr rfl)
  obtain ⟨-, hblind, hcount⟩ := hstopped hany
  refine ⟨fun entry hentry => hblind entry (hsuffix.subset hentry), fun j => ?_⟩
  have hfewer : (started j after).length ≤ (started j (afterStop (boot.run schedule).log)).length :=
    (hsuffix.sublist.filter _).length_le
  have hj := hcount j
  omega

/-- The stop comes while the listener is about to accept a connection: it is still accepted and served. -/
theorem stop_prompt_accepting :
    ∃ before after, (oneClient.run (List.replicate 4 .listener ++ [.signal] ++ List.replicate 8 .listener ++
        List.replicate 20 (.worker 0))).log = before ++ (.signal, ⟨.storeStopped, ()⟩) :: after ∧
      (started .listener after).length ≤ 1 := by
  have hentry : (oneClient.run (List.replicate 4 .listener ++ [.signal] ++ List.replicate 8 .listener ++
      List.replicate 20 (.worker 0))).log[3]? = some (.signal, ⟨.storeStopped, ()⟩) := rfl
  obtain ⟨before, after, hlog⟩ := List.append_of_mem (List.mem_of_getElem? hentry)
  exact ⟨before, after, hlog, (stop_prompt oneClient _ before after .signal () hlog).2 .listener⟩

end PulseLink
