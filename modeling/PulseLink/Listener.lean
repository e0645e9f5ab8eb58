import PulseLink.BaseGate
import PulseLink.ClientWorker

/-! The server as a whole: the accept loop of `server/tcp_listener.c`, a detached worker for every connection it
hands over, the stop signal and the shutdown of `server/main.c`, interleaved in any order. Connections are
numbered as they are accepted; the number stands for the descriptor, and an operation names the connection it
is performed for. Of the log lines only the reads of `wa->peer` are kept, and those of a turn of the worker's
loop are one read at its end, made whether or not the turn writes a line. The joins of the other two threads
only delay `main` and are left out. -/

namespace PulseLink

/-! ### Operations -/

/-- The life of a `worker_arg_t`. -/
inductive ArgState where
  | absent
  | allocated
  | handedOver
  | freed
  deriving DecidableEq, Repr

/-- What `poll` returned: an error, or which of the two descriptors is readable. -/
inductive Polled where
  | eintr
  | error
  | ready (pipe conn : Bool)
  deriving DecidableEq, Repr

inductive HostOp where
  /-- an operation of the worker of connection `cfd` within a turn of its loop -/
  | serve (cfd : Nat) (o : ServerOp)
  | makeListenSocket
  | loadRunning
  | poll
  | accept
  | semTrywait (cfd : Nat)
  | malloc (cfd : Nat)
  /-- storing `ctx`, `fd` and `peer` -/
  | fillArg (cfd : Nat)
  | pthreadCreate (cfd : Nat)
  | semPost (cfd : Nat)
  | close (cfd : Nat)
  | freeArg (cfd : Nat)
  | readArg (cfd : Nat)
  | activeAdd (cfd : Nat)
  | activeSub (cfd : Nat)
  | closeListen
  | storeStopped
  | writePipe
  | join
  | loadActive
  | loadLeftover
  | sinkClose
  | dtDestroy
  | semDestroy
  deriving DecidableEq, Repr

/-- The type of the answer to each operation; an access to a `worker_arg_t` answers in what state it was. -/
abbrev HostOp.Ans : HostOp → Type
  | .serve _ o => o.Ans
  | .makeListenSocket => Bool
  | .loadRunning => Bool
  | .poll => Polled
  | .accept => Option Nat
  | .semTrywait _ => Bool
  | .malloc _ => Bool
  | .fillArg _ => ArgState
  | .pthreadCreate _ => Bool
  | .freeArg _ => ArgState
  | .readArg _ => ArgState
  | .loadActive => Int
  | .loadLeftover => Int
  | _ => Unit

abbrev HostSig : Sig := ⟨HostOp, HostOp.Ans⟩

abbrev HostProc := Proc HostSig

abbrev host (o : HostOp) : HostProc o.Ans := Proc.perform (I := HostSig) o

/-! ### State -/

/-- The outcomes the environment will choose for the listener. Whether the pipe is readable is not among them. -/
structure HostChoices where
  sockets : List Bool
  polls : List Polled
  accepts : List Bool
  mallocs : List Bool
  creates : List Bool

/-- What the threads share. -/
structure Host where
  ctx : ServerCtx
  running : Bool
  /-- a byte has been written to the pipe -/
  pipe : Bool
  /-- how many connections have been accepted -/
  accepted : Nat
  /-- the workers that have been created -/
  spawned : Nat → Bool
  args : Nat → ArgState
  choices : HostChoices

def Host.setArg (s : Host) (cfd : Nat) (a : ArgState) : Host := { s with args := Function.update s.args cfd a }

/-- The operations on the shared state and the connection of the thread that performs them. -/
def hostHandler : Handler HostSig (Conn × Host)
  | .serve _ .loadRunning, (conn, s) => (s.running, conn, s)
  | .serve _ o, (conn, s) =>
      let r := serverHandler o (conn, s.ctx)
      (r.1, r.2.1, { s with ctx := r.2.2 })
  | .makeListenSocket, (conn, s) =>
      let r := draw true s.choices.sockets
      (r.1, conn, { s with choices := { s.choices with sockets := r.2 } })
  | .loadRunning, (conn, s) => (s.running, conn, s)
  | .poll, (conn, s) =>
      let r := draw (.ready false false) s.choices.polls
      let s' := { s with choices := { s.choices with polls := r.2 } }
      match r.1 with
      | .ready _ incoming => (.ready s.pipe incoming, conn, s')
      | failed => (failed, conn, s')
  | .accept, (conn, s) =>
      let r := draw true s.choices.accepts
      let s' := { s with choices := { s.choices with accepts := r.2 } }
      if r.1 then (some s.accepted, conn, { s' with accepted := s.accepted + 1 }) else (none, conn, s')
  | .semTrywait _, (conn, s) =>
      if s.ctx.clientSlots = 0 then (false, conn, s)
      else (true, conn, { s with ctx := { s.ctx with clientSlots := s.ctx.clientSlots - 1 } })
  | .malloc cfd, (conn, s) =>
      let r := draw true s.choices.mallocs
      let s' := { s with choices := { s.choices with mallocs := r.2 } }
      (r.1, conn, if r.1 then s'.setArg cfd .allocated else s')
  | .fillArg cfd, (conn, s) => (s.args cfd, conn, s)
  | .pthreadCreate cfd, (conn, s) =>
      let r := draw true s.choices.creates
      let s' := { s with choices := { s.choices with creates := r.2 } }
      (r.1, conn,
        if r.1 then { s'.setArg cfd .handedOver with spawned := Function.update s.spawned cfd true } else s')
  | .semPost _, (conn, s) => ((), conn, { s with ctx := { s.ctx with clientSlots := s.ctx.clientSlots + 1 } })
  | .close _, (conn, s) => ((), conn, s)
  | .freeArg cfd, (conn, s) => (s.args cfd, conn, s.setArg cfd .freed)
  | .readArg cfd, (conn, s) => (s.args cfd, conn, s)
  | .activeAdd _, (conn, s) =>
      ((), conn, { s with ctx := { s.ctx with activeWorkers := s.ctx.activeWorkers + 1 } })
  | .activeSub _, (conn, s) =>
      ((), conn, { s with ctx := { s.ctx with activeWorkers := s.ctx.activeWorkers - 1 } })
  | .closeListen, (conn, s) => ((), conn, s)
  | .storeStopped, (conn, s) => ((), conn, { s with running := false })
  | .writePipe, (conn, s) => ((), conn, { s with pipe := true })
  | .join, (conn, s) => ((), conn, s)
  | .loadActive, (conn, s) => (s.ctx.activeWorkers, conn, s)
  | .loadLeftover, (conn, s) => (s.ctx.activeWorkers, conn, s)
  | .sinkClose, (conn, s) => ((), conn, s)
  | .dtDestroy, (conn, s) => ((), conn, s)
  | .semDestroy, (conn, s) => ((), conn, s)

/-! ### The accept loop -/

/-- What `tcp_listener_thread` does with an accepted descriptor. -/
def acceptClient (cfd : Nat) : HostProc Unit := do
  let slot ← host (.semTrywait cfd)
  if slot = false then host (.close cfd)
  else
    let ok ← host (.malloc cfd)
    if ok = false then
      host (.semPost cfd)
      host (.close cfd)
    else
      let _ ← host (.fillArg cfd)
      let created ← host (.pthreadCreate cfd)
      if created = false then
        host (.semPost cfd)
        host (.close cfd)
        let _ ← host (.freeArg cfd)
        return ()
      else
        -- the line "accepted %s (worker spawned)"
        let _ ← host (.readArg cfd)
        return ()

inductive ListenPc where
  | start
  | accepting
  deriving DecidableEq, Repr

/-- Leaving the loop. -/
def stopListening : HostProc (ListenPc ⊕ Unit) := do
  host .closeListen
  return .inr ()

/-- `tcp_listener_thread`. -/
def tcpListenerThread : Loop HostSig ListenPc Unit
  | .start => do
      let ok ← host .makeListenSocket
      if ok then return .inl .accepting
      else
        host .storeStopped
        return .inr ()
  | .accepting => do
      let running ← host .loadRunning
      if running = false then stopListening
      else
        let pr ← host .poll
        match pr with
        | .eintr => return .inl .accepting
        | .error => stopListening
        | .ready pipe conn =>
            if pipe then stopListening
            else if conn = false then return .inl .accepting
            else
              let cfd ← host .accept
              match cfd with
              | none => return .inl .accepting
              | some cfd =>
                  acceptClient cfd
                  return .inl .accepting

/-! ### The workers -/

/-- An operation of `client_worker` as one of the thread of connection `cfd`. The line "worker exit" reads the
argument before it is freed. -/
def hosted (cfd : Nat) : (o : ServerOp) → HostProc o.Ans
  | .activeAdd => host (.activeAdd cfd)
  | .activeSub => host (.activeSub cfd)
  | .closeFd => host (.close cfd)
  | .semPost => host (.semPost cfd)
  | .freeArg => do
      let _ ← host (.readArg cfd)
      let _ ← host (.freeArg cfd)
      return ()
  | o => host (.serve cfd o)

/-- `client_worker` with its accesses to the argument: `wa->ctx` and `wa->fd` before all, `wa->peer` in the log
lines. -/
def workerThread (cfg : Config) (cfd : Nat) : Loop HostSig WorkerPc ExitReason
  | .enter payload => do
      let _ ← host (.readArg cfd)
      (clientWorker cfg (.enter payload)).expand (hosted cfd)
  | .running l => do
      let x ← (clientWorker cfg (.running l)).expand (hosted cfd)
      match x with
      | .inl pc =>
          let _ ← host (.readArg cfd)
          return .inl pc
      | .inr why => return .inr why
  | .leave why => (clientWorker cfg (.leave why)).expand (hosted cfd)

/-! ### Stopping -/

/-- `on_stop`, once for every signal. -/
def onStop : HostProc Unit := do
  host .storeStopped
  host .writePipe

inductive MainPc where
  | join
  | drain (waitedMs : Nat)
  | tidy
  deriving DecidableEq, Repr

/-- `main`, from the join of the listener on. -/
def mainThread : Loop HostSig MainPc Unit
  | .join => do
      host .join
      return .inl (.drain 0)
  | .drain waitedMs => do
      let active ← host .loadActive
      if active > 0 ∧ waitedMs < 5000 then return .inl (.drain (waitedMs + 100))
      else return .inl .tidy
  | .tidy => do
      let _ ← host .loadLeftover
      host .sinkClose
      host .dtDestroy
      host .semDestroy
      return .inr ()

/-! ### All threads -/

/-- Who takes steps. -/
inductive Party where
  | listener
  | worker (cfd : Nat)
  | signal
  | main
  deriving DecidableEq, Repr

inductive Place where
  | listener (pc : ListenPc)
  | worker (cfd : Nat) (pc : WorkerPc)
  | signal
  | main (pc : MainPc)

/-- How a thread ended. -/
inductive ThreadEnd where
  | listener
  | worker (why : ExitReason)
  | main
  deriving DecidableEq, Repr

def hostBody (cfg : Config) : Loop HostSig Place ThreadEnd
  | .listener pc => do
      let x ← tcpListenerThread pc
      return x.map .listener fun _ => .listener
  | .worker cfd pc => do
      let x ← workerThread cfg cfd pc
      return x.map (.worker cfd) .worker
  | .signal => do
      onStop
      return .inl .signal
  | .main pc => do
      let x ← mainThread pc
      return x.map .main fun _ => .main

abbrev HostPool := Pool HostSig Party Place ThreadEnd Conn Host

/-- A worker takes no step before it is created, and `main` waits for the listener to finish. -/
def mayStep (pool : HostPool) : Party → Bool
  | .worker cfd => pool.shared.spawned cfd
  | .main =>
      match pool.threads .main with
      | .busy (.op .join _) => (pool.threads .listener).finished
      | _ => true
  | _ => true

/-- What a server starts with. -/
structure Boot where
  cfg : Config
  maxClients : Nat
  /-- what lies on the stack of each worker -/
  payloads : Nat → PayloadBuf
  conns : Nat → Conn
  ctx : ServerCtx
  choices : HostChoices

def Boot.place (boot : Boot) : Party → Place
  | .listener => .listener .start
  | .worker cfd => .worker cfd (.enter (boot.payloads cfd))
  | .signal => .signal
  | .main => .main .join

def Boot.conn (boot : Boot) : Party → Conn
  | .worker cfd => boot.conns cfd
  | _ => scripted []

/-- After `sem_init` and `atomic_init`. -/
def Boot.host (boot : Boot) : Host where
  ctx := { boot.ctx with activeWorkers := 0, clientSlots := boot.maxClients }
  running := true
  pipe := false
  accepted := 0
  spawned _ := false
  args _ := .absent
  choices := boot.choices

/-- The server after its threads took steps in the given order. -/
def Boot.run (boot : Boot) (schedule : List Party) : HostPool :=
  Pool.gatedRun mayStep (hostBody boot.cfg) hostHandler
    (.start (hostBody boot.cfg) boot.place boot.conn boot.host) schedule

end PulseLink
