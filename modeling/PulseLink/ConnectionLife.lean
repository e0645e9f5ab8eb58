import PulseLink.Listener
import PulseLink.WorkerPath

/-! The life of a connection, from the accept loop through its worker to the last `free`. The listener takes a
slot, allocates the argument and creates the thread, or gives back what it has; from `handed` on everything is
the worker's. Both keep to this life cycle, whatever the environment answers, and so the slots, the count of
active workers, the arguments and the log can be read off the phases the connections are in. -/

namespace PulseLink

/-! ### Phases -/

inductive ConnPhase where
  | absent
  -- with the listener
  | accepted
  | full
  | slotted
  | noMemory
  | noMemoryPosted
  | allocated
  | filled
  | noThread
  | noThreadPosted
  | noThreadClosed
  -- turned down
  | turnedAway
  | dropped
  | rolledBack
  -- with the worker
  | handed
  | begun
  | serving
  | closed
  | posted
  | resigned
  | logged
  | gone
  deriving DecidableEq, Repr

/-- What an operation for the connection makes of its phase, if it is allowed there. -/
def ConnPhase.next : ConnPhase → Event HostSig → Option ConnPhase
  | .accepted, ⟨.semTrywait _, slot⟩ => some (if slot then .slotted else .full)
  | .full, ⟨.close _, _⟩ => some .turnedAway
  | .slotted, ⟨.malloc _, ok⟩ => some (if ok then .allocated else .noMemory)
  | .noMemory, ⟨.semPost _, _⟩ => some .noMemoryPosted
  | .noMemoryPosted, ⟨.close _, _⟩ => some .dropped
  | .allocated, ⟨.fillArg _, _⟩ => some .filled
  | .filled, ⟨.pthreadCreate _, ok⟩ => some (if ok then .handed else .noThread)
  | .noThread, ⟨.semPost _, _⟩ => some .noThreadPosted
  | .noThreadPosted, ⟨.close _, _⟩ => some .noThreadClosed
  | .noThreadClosed, ⟨.freeArg _, _⟩ => some .rolledBack
  | .handed, ⟨.readArg _, _⟩ => some .begun
  | .begun, ⟨.activeAdd _, _⟩ => some .serving
  | .serving, ⟨.serve _ o, _⟩ => if inTurn o then some .serving else none
  | .serving, ⟨.readArg _, _⟩ => some .serving
  | .serving, ⟨.close _, _⟩ => some .closed
  | .closed, ⟨.semPost _, _⟩ => some .posted
  | .posted, ⟨.activeSub _, _⟩ => some .resigned
  | .resigned, ⟨.readArg _, _⟩ => some .logged
  | .logged, ⟨.freeArg _, _⟩ => some .gone
  | _, _ => none

namespace ConnPhase

/-- The listener has work to do for it. -/
def withListener : ConnPhase → Bool
  | .accepted | .full | .slotted | .noMemory | .noMemoryPosted | .allocated | .filled => true
  | .noThread | .noThreadPosted | .noThreadClosed => true
  | _ => false

/-- Its thread has been created. -/
def spawned : ConnPhase → Bool
  | .handed | .begun | .serving | .closed | .posted | .resigned | .logged | .gone => true
  | _ => false

def holdsSlot : ConnPhase → Bool
  | .slotted | .noMemory | .allocated | .filled | .noThread => true
  | .handed | .begun | .serving | .closed => true
  | _ => false

/-- It is counted in `active_workers`. -/
def counted : ConnPhase → Bool
  | .serving | .closed | .posted => true
  | _ => false

def arg : ConnPhase → ArgState
  | .allocated | .filled | .noThread | .noThreadPosted | .noThreadClosed => .allocated
  | .handed | .begun | .serving | .closed | .posted | .resigned | .logged => .handedOver
  | .rolledBack | .gone => .freed
  | _ => .absent

end ConnPhase

/-! ### What a log says about a connection -/

/-- The connection an operation is performed for. -/
def aim : HostOp → Option Nat
  | .serve cfd _ | .semTrywait cfd | .malloc cfd | .fillArg cfd | .pthreadCreate cfd => some cfd
  | .semPost cfd | .close cfd | .freeArg cfd | .readArg cfd | .activeAdd cfd | .activeSub cfd => some cfd
  | _ => none

/-- The moves of a connection. -/
inductive Advances (cfd : Nat) : ConnPhase → Event HostSig → ConnPhase → Prop where
  | trywait (slot : Bool) : Advances cfd .accepted ⟨.semTrywait cfd, slot⟩ (if slot then .slotted else .full)
  | turnAway : Advances cfd .full ⟨.close cfd, ()⟩ .turnedAway
  | malloc (ok : Bool) : Advances cfd .slotted ⟨.malloc cfd, ok⟩ (if ok then .allocated else .noMemory)
  | postNoMemory : Advances cfd .noMemory ⟨.semPost cfd, ()⟩ .noMemoryPosted
  | drop : Advances cfd .noMemoryPosted ⟨.close cfd, ()⟩ .dropped
  | fill (found : ArgState) : Advances cfd .allocated ⟨.fillArg cfd, found⟩ .filled
  | create (ok : Bool) : Advances cfd .filled ⟨.pthreadCreate cfd, ok⟩ (if ok then .handed else .noThread)
  | postNoThread : Advances cfd .noThread ⟨.semPost cfd, ()⟩ .noThreadPosted
  | closeNoThread : Advances cfd .noThreadPosted ⟨.close cfd, ()⟩ .noThreadClosed
  | rollBack (found : ArgState) : Advances cfd .noThreadClosed ⟨.freeArg cfd, found⟩ .rolledBack
  | begin (found : ArgState) : Advances cfd .handed ⟨.readArg cfd, found⟩ .begun
  | start : Advances cfd .begun ⟨.activeAdd cfd, ()⟩ .serving
  | serve {o : ServerOp} (ho : inTurn o = true) (ans : o.Ans) : Advances cfd .serving ⟨.serve cfd o, ans⟩ .serving
  | logTurn (found : ArgState) : Advances cfd .serving ⟨.readArg cfd, found⟩ .serving
  | close : Advances cfd .serving ⟨.close cfd, ()⟩ .closed
  | post : Advances cfd .closed ⟨.semPost cfd, ()⟩ .posted
  | resign : Advances cfd .posted ⟨.activeSub cfd, ()⟩ .resigned
  | logExit (found : ArgState) : Advances cfd .resigned ⟨.readArg cfd, found⟩ .logged
  | free (found : ArgState) : Advances cfd .logged ⟨.freeArg cfd, found⟩ .gone

theorem advances_of_next {cfd : Nat} {ph ph' : ConnPhase} {e : Event HostSig} (haim : aim e.op = some cfd)
    (hnext : ph.next e = some ph') : Advances cfd ph e ph' := by
  fun_cases ConnPhase.next ph e
  case case13 c o ans ho =>
    cases haim
    rw [ConnPhase.next, if_pos ho] at hnext
    cases hnext
    exact .serve ho ans
  case case14 c o ans ho =>
    rw [ConnPhase.next, if_neg ho] at hnext
    cases hnext
  case case21 => simp_all [ConnPhase.next]
  all_goals
    cases haim
    cases hnext
    constructor

/-- How often its argument was allocated, its thread created, its worker added to the active ones, its descriptor
closed, its slot given back, its worker taken off the active ones, its argument freed. -/
structure ConnTally where
  allocated : Nat
  created : Nat
  started : Nat
  closes : Nat
  posts : Nat
  resigned : Nat
  frees : Nat
  deriving DecidableEq, Repr

def ConnTally.add (y : ConnTally) : Event HostSig → ConnTally
  | ⟨.malloc _, ok⟩ => if ok then { y with allocated := y.allocated + 1 } else y
  | ⟨.pthreadCreate _, ok⟩ => if ok then { y with created := y.created + 1 } else y
  | ⟨.activeAdd _, _⟩ => { y with started := y.started + 1 }
  | ⟨.close _, _⟩ => { y with closes := y.closes + 1 }
  | ⟨.semPost _, _⟩ => { y with posts := y.posts + 1 }
  | ⟨.activeSub _, _⟩ => { y with resigned := y.resigned + 1 }
  | ⟨.freeArg _, _⟩ => { y with frees := y.frees + 1 }
  | _ => y

/-- The operations performed for connection `cfd`, counted. -/
def tallyOf (log : List (Party × Event HostSig)) (cfd : Nat) : ConnTally :=
  log.foldl (fun y entry => if aim entry.2.op = some cfd then y.add entry.2 else y) ⟨0, 0, 0, 0, 0, 0, 0⟩

theorem tallyOf_concat (log : List (Party × Event HostSig)) (i : Party) (e : Event HostSig) (cfd : Nat) :
    tallyOf (log ++ [(i, e)]) cfd = if aim e.op = some cfd then (tallyOf log cfd).add e else tallyOf log cfd := by
  rw [tallyOf, List.foldl_concat]
  rfl

/-- The tally of a connection in each phase. -/
def ConnPhase.tally : ConnPhase → ConnTally
  | .noMemoryPosted => ⟨0, 0, 0, 0, 1, 0, 0⟩
  | .turnedAway => ⟨0, 0, 0, 1, 0, 0, 0⟩
  | .dropped => ⟨0, 0, 0, 1, 1, 0, 0⟩
  | .allocated | .filled | .noThread => ⟨1, 0, 0, 0, 0, 0, 0⟩
  | .noThreadPosted => ⟨1, 0, 0, 0, 1, 0, 0⟩
  | .noThreadClosed => ⟨1, 0, 0, 1, 1, 0, 0⟩
  | .rolledBack => ⟨1, 0, 0, 1, 1, 0, 1⟩
  | .handed | .begun => ⟨1, 1, 0, 0, 0, 0, 0⟩
  | .serving => ⟨1, 1, 1, 0, 0, 0, 0⟩
  | .closed => ⟨1, 1, 1, 1, 0, 0, 0⟩
  | .posted => ⟨1, 1, 1, 1, 1, 0, 0⟩
  | .resigned | .logged => ⟨1, 1, 1, 1, 1, 1, 0⟩
  | .gone => ⟨1, 1, 1, 1, 1, 1, 1⟩
  | _ => ⟨0, 0, 0, 0, 0, 0, 0⟩

/-! ### Roles -/

/-- What the listener is busy with. -/
inductive Desk where
  | opening
  | unopened
  | idle
  | hand (cfd : Nat) (ph : ConnPhase)
  /-- the thread of `cfd` has been created, the log line is to come -/
  | told (cfd : Nat)
  | left
  deriving DecidableEq, Repr

def Desk.after (cfd : Nat) (ph : ConnPhase) : Desk :=
  if ph.withListener then .hand cfd ph else if ph.spawned then .told cfd else .idle

def Desk.next : Desk → Event HostSig → Option Desk
  | .opening, ⟨.makeListenSocket, ok⟩ => some (if ok then .idle else .unopened)
  | .unopened, ⟨.storeStopped, _⟩ => some .left
  | .idle, ⟨.loadRunning, _⟩ => some .idle
  | .idle, ⟨.poll, _⟩ => some .idle
  | .idle, ⟨.accept, cfd⟩ => some (cfd.elim .idle fun cfd => .hand cfd .accepted)
  | .idle, ⟨.closeListen, _⟩ => some .left
  | .hand cfd ph, e => if aim e.op = some cfd then (ph.next e).map (Desk.after cfd) else none
  | .told cfd, ⟨.readArg cfd', _⟩ => if cfd' = cfd then some .idle else none
  | _, _ => none

/-- The moves of the listener. -/
inductive DeskMoves : Desk → Event HostSig → Desk → Prop where
  | bind (ok : Bool) : DeskMoves .opening ⟨.makeListenSocket, ok⟩ (if ok then .idle else .unopened)
  | giveUp : DeskMoves .unopened ⟨.storeStopped, ()⟩ .left
  | look (running : Bool) : DeskMoves .idle ⟨.loadRunning, running⟩ .idle
  | poll (pr : Polled) : DeskMoves .idle ⟨.poll, pr⟩ .idle
  | accept (cfd : Option Nat) : DeskMoves .idle ⟨.accept, cfd⟩ (cfd.elim .idle fun cfd => .hand cfd .accepted)
  | leave : DeskMoves .idle ⟨.closeListen, ()⟩ .left
  | advance {cfd : Nat} {ph ph' : ConnPhase} {e : Event HostSig} (hadvances : Advances cfd ph e ph') :
      DeskMoves (.hand cfd ph) e (Desk.after cfd ph')
  | log (cfd : Nat) (found : ArgState) : DeskMoves (.told cfd) ⟨.readArg cfd, found⟩ .idle

theorem deskMoves_of_next {d d' : Desk} {e : Event HostSig} (hnext : d.next e = some d') : DeskMoves d e d' := by
  obtain ⟨o, ans⟩ := e
  cases d with
  | hand cfd ph =>
      rw [Desk.next] at hnext
      split_ifs at hnext with haim
      obtain ⟨ph', hph', rfl⟩ := Option.map_eq_some_iff.mp hnext
      exact .advance (advances_of_next haim hph')
  | told cfd =>
      cases o with
      | readArg cfd' =>
          rw [Desk.next] at hnext
          split_ifs at hnext with hcfd
          cases hnext
          subst hcfd
          exact .log cfd' ans
      | _ => cases hnext
  | left => cases o <;> cases hnext
  | opening | unopened | idle => cases o <;> first | (cases hnext; done) | (cases hnext; constructor)

/-- How far `main` is. -/
inductive MainStage where
  | joining
  | draining
  /-- it has seen no active workers -/
  | drained
  deriving DecidableEq, Repr

/-- The operations of `main` after the drain loop. -/
def Tidies : HostOp → Bool
  | .loadLeftover | .sinkClose | .dtDestroy | .semDestroy => true
  | _ => false

def MainStage.next : MainStage → Event HostSig → Option MainStage
  | .joining, ⟨.join, _⟩ => some .draining
  | .joining, _ => none
  | .draining, ⟨.loadActive, n⟩ => some (if n ≤ 0 then .drained else .draining)
  | st, e => if Tidies e.op then some st else none

inductive Role where
  | listener (d : Desk)
  | worker (cfd : Nat) (ph : ConnPhase)
  | signal
  | main (st : MainStage)
  deriving DecidableEq, Repr

def Role.next : Monitor HostSig Role
  | .listener d, e => (d.next e).map .listener
  | .worker cfd ph, e => if aim e.op = some cfd then (ph.next e).map (.worker cfd) else none
  | .signal, ⟨.storeStopped, _⟩ => some .signal
  | .signal, ⟨.writePipe, _⟩ => some .signal
  | .signal, _ => none
  | .main st, e => (st.next e).map .main

theorem hand_next {cfd : Nat} {ph ph' : ConnPhase} {e : Event HostSig} (haim : aim e.op = some cfd)
    (hnext : ph.next e = some ph') :
    Role.next (.listener (.hand cfd ph)) e = some (.listener (Desk.after cfd ph')) := by
  rw [Role.next, Desk.next, if_pos haim, hnext]
  rfl

theorem worker_next {cfd : Nat} {ph ph' : ConnPhase} {e : Event HostSig} (haim : aim e.op = some cfd)
    (hnext : ph.next e = some ph') : Role.next (.worker cfd ph) e = some (.worker cfd ph') := by
  rw [Role.next, if_pos haim, hnext]
  rfl

/-! ### The threads keep to their roles -/

/-- The role of a thread at each turn of its loop. -/
def InRole : Place → Role → Prop
  | .listener .start, r => r = .listener .opening
  | .listener .accepting, r => r = .listener .idle
  | .worker cfd (.enter _), r => r = .worker cfd .handed
  | .worker cfd (.running _), r => r = .worker cfd .serving
  | .worker cfd (.leave why), r => why ≠ .crash ∧ r = .worker cfd .serving
  | .signal, r => r = .signal
  | .main .join, r => r = .main .joining
  | .main (.drain _), r => r = .main .draining
  | .main .tidy, r => ∃ st, st ≠ .joining ∧ r = .main st

/-- The role of a thread that has ended. -/
def EndsIn : ThreadEnd → Role → Prop
  | .listener, r => r = .listener .left
  | .worker why, r => ∃ cfd, r = .worker cfd (if why = .crash then .serving else .gone)
  | .main, r => ∃ st, st ≠ .joining ∧ r = .main st

section Follows

variable {α : Type} {Q : Role → α → Prop}

theorem host_ask {o : HostOp} {f : o.Ans → HostProc α} {r : Role} (g : o.Ans → Role)
    (hmove : ∀ ans, Role.next r ⟨o, ans⟩ = some (g ans)) (hf : ∀ ans, (f ans).Follows Role.next Q (g ans)) :
    (host o >>= f).Follows Role.next Q r :=
  fun ans => ⟨g ans, hmove ans, hf ans⟩

/-! #### The listener -/

theorem hand_ask {o : HostOp} {f : o.Ans → HostProc α} {cfd : Nat} (ph : ConnPhase) (ph' : o.Ans → ConnPhase)
    (haim : aim o = some cfd) (hnext : ∀ ans, ph.next ⟨o, ans⟩ = some (ph' ans))
    (hf : ∀ ans, (f ans).Follows Role.next Q (.listener (Desk.after cfd (ph' ans)))) :
    (host o >>= f).Follows Role.next Q (.listener (.hand cfd ph)) :=
  host_ask (fun ans => .listener (Desk.after cfd (ph' ans))) (fun ans => hand_next haim (hnext ans)) hf

/-- The last operation for a connection that is turned down. -/
theorem close_follows {cfd : Nat} (ph ph' : ConnPhase) (hnext : ∀ ans, ph.next ⟨.close cfd, ans⟩ = some ph')
    (hidle : Desk.after cfd ph' = .idle) :
    (host (.close cfd)).Follows Role.next (fun r _ => r = .listener .idle) (.listener (.hand cfd ph)) :=
  fun ans => ⟨.listener .idle, hidle ▸ hand_next rfl (hnext ans), rfl⟩

/-- Whatever happens to it, the listener is through with the connection at the end. -/
theorem acceptClient_follows (cfd : Nat) :
    (acceptClient cfd).Follows Role.next (fun r _ => r = .listener .idle) (.listener (.hand cfd .accepted)) := by
  refine hand_ask .accepted (fun slot => if slot then .slotted else .full) rfl (fun _ => rfl) fun slot => ?_
  cases slot with
  | false => exact close_follows .full .turnedAway (fun _ => rfl) rfl
  | true =>
      refine hand_ask .slotted (fun ok => if ok then .allocated else .noMemory) rfl (fun _ => rfl) fun ok => ?_
      cases ok with
      | false =>
          refine hand_ask .noMemory (fun _ => .noMemoryPosted) rfl (fun _ => rfl) fun _ => ?_
          exact close_follows .noMemoryPosted .dropped (fun _ => rfl) rfl
      | true =>
          refine hand_ask .allocated (fun _ => .filled) rfl (fun _ => rfl) fun _ => ?_
          refine hand_ask .filled (fun created => if created then .handed else .noThread) rfl (fun _ => rfl)
            fun created => ?_
          cases created with
          | false =>
              refine hand_ask .noThread (fun _ => .noThreadPosted) rfl (fun _ => rfl) fun _ => ?_
              refine hand_ask .noThreadPosted (fun _ => .noThreadClosed) rfl (fun _ => rfl) fun _ => ?_
              exact hand_ask .noThreadClosed (fun _ => .rolledBack) rfl (fun _ => rfl) fun _ => rfl
          | true =>
              refine host_ask (r := .listener (.told cfd)) (fun _ => .listener .idle) (fun _ => ?_) fun _ => rfl
              rw [Role.next, Desk.next, if_pos rfl]
              rfl

/-- What a turn of the listener leads to. -/
def DeskTurn (r : Role) (x : ListenPc ⊕ Unit) : Prop :=
  Monitor.Turned InRole EndsIn r (x.map Place.listener fun _ => ThreadEnd.listener)

theorem stopListening_follows : stopListening.Follows Role.next DeskTurn (.listener .idle) :=
  host_ask (fun _ => .listener .left) (fun _ => rfl) fun _ => rfl

theorem tcpListenerThread_follows {pc : ListenPc} {r : Role} (hr : InRole (.listener pc) r) :
    (tcpListenerThread pc).Follows Role.next DeskTurn r := by
  cases pc with
  | start =>
      cases hr
      refine host_ask (fun ok => .listener (if ok then .idle else .unopened)) (fun _ => rfl) fun ok => ?_
      cases ok with
      | true => exact rfl
      | false => exact host_ask (r := .listener .unopened) (fun _ => .listener .left) (fun _ => rfl) fun _ => rfl
  | accepting =>
      cases hr
      refine host_ask (fun _ => .listener .idle) (fun _ => rfl) fun running => ?_
      cases running with
      | false => exact stopListening_follows
      | true =>
          refine host_ask (fun _ => .listener .idle) (fun _ => rfl) fun pr => ?_
          cases pr with
          | eintr => exact rfl
          | error => exact stopListening_follows
          | ready pipe conn =>
              simp only
              split_ifs
              · exact stopListening_follows
              · exact rfl
              · refine host_ask (fun cfd => .listener (cfd.elim .idle fun cfd => .hand cfd .accepted))
                  (fun _ => rfl)
                  fun cfd => ?_
                cases cfd with
                | none => exact rfl
                | some cfd =>
                    refine (acceptClient_follows cfd).bind ?_
                    rintro r _ rfl
                    exact rfl

/-! #### The workers -/

/-- A turn of the loop stays in phase `serving`. -/
theorem hosted_follows (cfd : Nat) {o : ServerOp} (ho : inTurn o = true) :
    (hosted cfd o).Follows Role.next (fun r _ => r = .worker cfd .serving) (.worker cfd .serving) := by
  cases o <;> first | cases ho; done | exact fun _ => ⟨_, worker_next rfl rfl, rfl⟩

/-- What a turn of a worker leads to. -/
def LifeTurn (cfd : Nat) (r : Role) (x : WorkerPc ⊕ ExitReason) : Prop :=
  Monitor.Turned InRole EndsIn r (x.map (Place.worker cfd) ThreadEnd.worker)

theorem worker_ask {o : HostOp} {f : o.Ans → HostProc α} {cfd : Nat} (ph ph' : ConnPhase) (haim : aim o = some cfd)
    (hnext : ∀ ans, ph.next ⟨o, ans⟩ = some ph') (hf : ∀ ans, (f ans).Follows Role.next Q (.worker cfd ph')) :
    (host o >>= f).Follows Role.next Q (.worker cfd ph) :=
  host_ask (fun _ => .worker cfd ph') (fun ans => worker_next haim (hnext ans)) hf

/-- Cleaning up after leaving the loop, in the order of the source. -/
theorem leave_roles (cfg : Config) (cfd : Nat) {why : ExitReason} (hwhy : why ≠ .crash) :
    (workerThread cfg cfd (.leave why)).Follows Role.next (LifeTurn cfd) (.worker cfd .serving) := by
  refine worker_ask .serving .closed rfl (fun _ => rfl) fun _ => ?_
  refine worker_ask .closed .posted rfl (fun _ => rfl) fun _ => ?_
  refine worker_ask .posted .resigned rfl (fun _ => rfl) fun _ => ?_
  refine worker_ask .resigned .logged rfl (fun _ => rfl) fun _ => ?_
  refine worker_ask .logged .gone rfl (fun _ => rfl) fun _ => ?_
  exact ⟨cfd, by rw [if_neg hwhy]⟩

theorem workerThread_follows (cfg : Config) {cfd : Nat} {pc : WorkerPc} {r : Role}
    (hr : InRole (.worker cfd pc) r) : (workerThread cfg cfd pc).Follows Role.next (LifeTurn cfd) r := by
  cases pc with
  | enter payload =>
      cases hr
      refine worker_ask .handed .begun rfl (fun _ => rfl) fun _ => ?_
      exact worker_ask .begun .serving rfl (fun _ => rfl) fun _ => rfl
  | running l =>
      cases hr
      have hturn : (clientWorker cfg (.running l)).Within (Turning (OnlyOn l.dev)) fun x =>
          ∃ turn, x = WorkerPc.next turn :=
        Proc.Within.bind (clientTurn_turning cfg l) fun turn _ => ⟨turn, rfl⟩
      refine (hturn.expand_follows fun o ho => hosted_follows cfd ho.2.1).bind ?_
      rintro r _ ⟨rfl, turn, rfl⟩
      have hread : ∀ pc, InRole (.worker cfd pc) (.worker cfd .serving) →
          (do let _ ← host (.readArg cfd); return .inl pc : HostProc (WorkerPc ⊕ ExitReason)).Follows Role.next
            (LifeTurn cfd) (.worker cfd .serving) :=
        fun pc hpc => worker_ask .serving .serving rfl (fun _ => rfl) fun _ => hpc
      cases turn with
      | inl l' => exact hread (.running l') rfl
      | inr why =>
          cases why with
          | crash => exact ⟨cfd, rfl⟩
          | _ => exact hread (.leave _) ⟨nofun, rfl⟩
  | leave why =>
      obtain ⟨hwhy, rfl⟩ := hr
      exact leave_roles cfg cfd hwhy

/-! #### Stopping -/

theorem mainThread_follows {pc : MainPc} {r : Role} (hr : InRole (.main pc) r) :
    (mainThread pc).Follows Role.next
      (fun r x => Monitor.Turned InRole EndsIn r (x.map Place.main fun _ => ThreadEnd.main)) r := by
  cases pc with
  | join =>
      cases hr
      exact host_ask (fun _ => .main .draining) (fun _ => rfl) fun _ => rfl
  | drain waitedMs =>
      cases hr
      refine host_ask (fun active => .main (if active ≤ 0 then .drained else .draining)) (fun _ => rfl)
        fun active => ?_
      by_cases hactive : active ≤ 0
      · rw [if_pos hactive, if_neg fun h => absurd hactive (Int.not_le.mpr h.1)]
        exact ⟨.drained, nofun, rfl⟩
      · rw [if_neg hactive]
        split_ifs
        · exact rfl
        · exact ⟨.draining, nofun, rfl⟩
  | tidy =>
      obtain ⟨st, hst, rfl⟩ := hr
      have hstays : ∀ o ans, Tidies o = true → Role.next (.main st) ⟨o, ans⟩ = some (.main st) := by
        intro o ans ho
        cases st with
        | joining => exact absurd rfl hst
        | _ => cases o <;> first | rfl | cases ho
      refine host_ask (fun _ => .main st) (fun ans => hstays _ ans rfl) fun _ => ?_
      refine host_ask (fun _ => .main st) (fun ans => hstays _ ans rfl) fun _ => ?_
      refine host_ask (fun _ => .main st) (fun ans => hstays _ ans rfl) fun _ => ?_
      exact host_ask (fun _ => .main st) (fun ans => hstays _ ans rfl) fun _ => ⟨st, hst, rfl⟩

/-- Every thread keeps to its role. -/
theorem hostBody_follows (cfg : Config) {a : Place} {r : Role} (hr : InRole a r) :
    (hostBody cfg a).Follows Role.next (Monitor.Turned InRole EndsIn) r := by
  cases a with
  | listener pc => exact (tcpListenerThread_follows hr).bind fun _ _ hx => hx
  | worker cfd pc => exact (workerThread_follows cfg hr).bind fun _ _ hx => hx
  | signal =>
      cases hr
      refine host_ask (fun _ => .signal) (fun _ => rfl) fun _ => ?_
      exact host_ask (fun _ => .signal) (fun _ => rfl) fun _ => rfl
  | main pc => exact (mainThread_follows hr).bind fun _ _ hx => hx

end Follows

end PulseLink
