import PulseLink.Maintenance
import PulseLink.Readout

/-! The two background threads of the server, `udp_listener_thread` and `reaper_thread`, among signals and the
workers' calls on the device table, each atomic step on its own. A SIGUSR1 sets a flag that the reaper exchanges
once in every tick: no request is lost and no dump comes unasked. Every tenth tick the reaper sweeps: a device
that nobody refreshes any more goes OFFLINE with the first sweep that begins too late for it. -/

namespace PulseLink

open Bytes

def SWEEP_PERIOD_TICKS : Nat := 10

/-! ### The threads -/

/-- The atomic operations of the threads; `storeDump` is the handler of SIGUSR1 and `storeStopped` that of the
signals which stop the server. -/
inductive DaemonOp where
  | loadRunning
  | recvfrom
  | usleep
  | exchangeDump
  | dtDump
  | sinkDump
  | traffic (o : TrafficOp)
  | storeDump
  | storeStopped
  deriving DecidableEq, Repr

/-- `recvfrom` answers a datagram, or nothing for an error or a tick. -/
abbrev DaemonOp.Ans : DaemonOp → Type
  | .loadRunning => Bool
  | .recvfrom => Option (List UInt8)
  | .exchangeDump => Bool
  | .traffic o => o.Ans
  | _ => Unit

abbrev DaemonSig : Sig := ⟨DaemonOp, DaemonOp.Ans⟩

abbrev DaemonProc := Proc DaemonSig

abbrev daemon (o : DaemonOp) : DaemonProc o.Ans := Proc.perform (I := DaemonSig) o

/-- A program on the device table. -/
def onTable {α : Type} (p : TrafficProc α) : DaemonProc α := p.expand fun o => daemon (.traffic o)

/-- A signal of the process. -/
inductive Signal where
  | usr1
  | stop
  deriving DecidableEq, Repr

/-- Where a thread is at the start of a turn of its loop. -/
inductive DaemonPc where
  | udp
  | reaper (ticks : Nat)
  /-- the signals still to come -/
  | signals (pending : List Signal)
  /-- a worker, by its calls on the table -/
  | worker (calls : List TrafficCall)

/-- A turn of `udp_listener_thread`. -/
def udpListenerThread (host : Endian) : DaemonProc (DaemonPc ⊕ Unit) := do
  let running ← daemon .loadRunning
  if running then
    let got ← daemon .recvfrom
    onTable (onServer (udpTurn host got))
    return .inl .udp
  else return .inr ()

/-- The rest of a turn of `reaper_thread`, behind the dump. -/
def reaperTick (ticks : Nat) : DaemonProc (DaemonPc ⊕ Unit) :=
  if SWEEP_PERIOD_TICKS ≤ ticks + 1 then do
    onTable reaperSweep
    return .inl (.reaper 0)
  else return .inl (.reaper (ticks + 1))

/-- A turn of `reaper_thread`. -/
def reaperThread (ticks : Nat) : DaemonProc (DaemonPc ⊕ Unit) := do
  let running ← daemon .loadRunning
  if running then
    daemon .usleep
    let requested ← daemon .exchangeDump
    if requested then
      daemon .dtDump
      daemon .sinkDump
      reaperTick ticks
    else reaperTick ticks
  else return .inr ()

/-- `on_dump` and `on_stop`. -/
def onSignal : Signal → DaemonProc Unit
  | .usr1 => daemon .storeDump
  | .stop => daemon .storeStopped

def daemonBody (host : Endian) : Loop DaemonSig DaemonPc Unit
  | .udp => udpListenerThread host
  | .reaper ticks => reaperThread ticks
  | .signals [] => return .inr ()
  | .signals (signal :: pending) => do
      onSignal signal
      return .inl (.signals pending)
  | .worker [] => return .inr ()
  | .worker (call :: calls) => do
      onTable call.proc
      return .inl (.worker calls)

/-- The state the threads share. -/
structure Daemons where
  running : Bool
  dumpRequested : Bool
  datagrams : List (Option (List UInt8))
  ctx : ServerCtx

def daemonHandler : Handler DaemonSig (Conn × Daemons)
  | .loadRunning, (conn, w) => (w.running, conn, w)
  | .recvfrom, (conn, w) =>
      let r := draw none w.datagrams
      (r.1, conn, { w with datagrams := r.2 })
  | .usleep, w => ((), w)
  | .exchangeDump, (conn, w) => (w.dumpRequested, conn, { w with dumpRequested := false })
  | .dtDump, w => ((), w)
  | .sinkDump, w => ((), w)
  | .traffic o, (conn, w) =>
      let r := trafficHandler o (conn, w.ctx)
      (r.1, r.2.1, { w with ctx := r.2.2 })
  | .storeDump, (conn, w) => ((), conn, { w with dumpRequested := true })
  | .storeStopped, (conn, w) => ((), conn, { w with running := false })

abbrev DaemonPool (ι : Type) := Pool DaemonSig ι DaemonPc Unit Conn Daemons

/-- The state in which the threads start. -/
def Daemons.start (datagrams : List (Option (List UInt8))) (ctx : ServerCtx) : Daemons :=
  ⟨true, false, datagrams, ctx⟩

/-- The threads. -/
inductive DaemonKind where
  | udp
  | reaper
  | signals (pending : List Signal)
  | worker (calls : List TrafficCall)

def DaemonKind.start : DaemonKind → DaemonPc
  | .udp => .udp
  | .reaper => .reaper 0
  | .signals pending => .signals pending
  | .worker calls => .worker calls

/-- The threads after steps in the given order. -/
def daemonRun {ι : Type} [DecidableEq ι] (host : Endian) (kinds : ι → DaemonKind) (conns : ι → Conn)
    (datagrams : List (Option (List UInt8))) (ctx : ServerCtx) (schedule : List ι) : DaemonPool ι :=
  Pool.run (daemonBody host) daemonHandler
    (.start (daemonBody host) (fun i => (kinds i).start) conns (.start datagrams ctx)) schedule

/-! ### The stages of a tick -/

/-- How far the reaper is in its turn; the other threads have one stage. -/
inductive ReapStage where
  | top (ticks : Nat)
  | awake (ticks : Nat)
  | slept (ticks : Nat)
  | asked (ticks : Nat)
  | dumped (ticks : Nat)
  | clock
  | chains (now : Int)
  | sweeping (now : Int) (p : Nat) (rest : List Nat)
  | marking (now : Int) (p : Nat) (rest : List Nat)
  | other
  deriving DecidableEq, Repr

namespace ReapStage

/-- Behind the dump: the sweep is due in every tenth tick. -/
def ticked (ticks : Nat) : ReapStage := if SWEEP_PERIOD_TICKS ≤ ticks + 1 then .clock else .top (ticks + 1)

/-- With these devices still to visit. -/
def sweepOn (now : Int) : List Nat → ReapStage
  | [] => .top 0
  | p :: rest => .sweeping now p rest

/-- What the other threads do not do. -/
def reaps : DaemonOp → Bool
  | .usleep => true
  | .exchangeDump => true
  | .dtDump => true
  | .sinkDump => true
  | _ => false

def next : Monitor DaemonSig ReapStage
  | .top ticks, ⟨.loadRunning, running⟩ => some (if running then .awake ticks else .other)
  | .awake ticks, ⟨.usleep, _⟩ => some (.slept ticks)
  | .slept ticks, ⟨.exchangeDump, requested⟩ => some (if requested then .asked ticks else ticked ticks)
  | .asked ticks, ⟨.dtDump, _⟩ => some (.dumped ticks)
  | .dumped ticks, ⟨.sinkDump, _⟩ => some (ticked ticks)
  | .clock, ⟨.traffic (.server .time), now⟩ => some (.chains now)
  | .chains now, ⟨.traffic .chains, ps⟩ => some (sweepOn now ps)
  | .sweeping now p rest, ⟨.traffic (.loadSeen q), seen⟩ =>
      if q = p then some (if now - seen > HEARTBEAT_TIMEOUT_S then .marking now p rest else sweepOn now rest)
      else none
  | .marking now p rest, ⟨.traffic (.server (.device q (.storeState .offline))), _⟩ =>
      if q = p then some (sweepOn now rest) else none
  | .other, ⟨o, _⟩ => if reaps o then none else some .other
  | _, _ => none

/-- The moves from stage to stage. -/
inductive Moves : ReapStage → Event DaemonSig → ReapStage → Prop where
  | stop (ticks : Nat) : Moves (.top ticks) ⟨.loadRunning, false⟩ .other
  | go (ticks : Nat) : Moves (.top ticks) ⟨.loadRunning, true⟩ (.awake ticks)
  | sleep (ticks : Nat) : Moves (.awake ticks) ⟨.usleep, ()⟩ (.slept ticks)
  | unasked (ticks : Nat) : Moves (.slept ticks) ⟨.exchangeDump, false⟩ (ticked ticks)
  | asked (ticks : Nat) : Moves (.slept ticks) ⟨.exchangeDump, true⟩ (.asked ticks)
  | dump (ticks : Nat) : Moves (.asked ticks) ⟨.dtDump, ()⟩ (.dumped ticks)
  | sinkDump (ticks : Nat) : Moves (.dumped ticks) ⟨.sinkDump, ()⟩ (ticked ticks)
  | clock (now : Int) : Moves .clock ⟨.traffic (.server .time), now⟩ (.chains now)
  | walk (now : Int) (ps : List Nat) : Moves (.chains now) ⟨.traffic .chains, ps⟩ (sweepOn now ps)
  | late {now seen : Int} (p : Nat) (rest : List Nat) (hlate : now - seen > HEARTBEAT_TIMEOUT_S) :
      Moves (.sweeping now p rest) ⟨.traffic (.loadSeen p), seen⟩ (.marking now p rest)
  | fresh {now seen : Int} (p : Nat) (rest : List Nat) (hfresh : ¬ now - seen > HEARTBEAT_TIMEOUT_S) :
      Moves (.sweeping now p rest) ⟨.traffic (.loadSeen p), seen⟩ (sweepOn now rest)
  | mark (now : Int) (p : Nat) (rest : List Nat) :
      Moves (.marking now p rest) ⟨.traffic (.server (.device p (.storeState .offline))), ()⟩ (sweepOn now rest)
  | other {e : Event DaemonSig} (hnot : reaps e.op = false) : Moves .other e .other

theorem moves_of_next {stage stage' : ReapStage} {e : Event DaemonSig} (hmove : stage.next e = some stage') :
    Moves stage e stage' := by
  obtain ⟨o, ans⟩ := e
  cases stage with
  | top ticks =>
      cases o with
      | loadRunning =>
          cases ans with
          | false => cases hmove; exact .stop ticks
          | true => cases hmove; exact .go ticks
      | _ => cases hmove
  | awake ticks =>
      cases o with
      | usleep => cases hmove; exact .sleep ticks
      | _ => cases hmove
  | slept ticks =>
      cases o with
      | exchangeDump =>
          cases ans with
          | false => cases hmove; exact .unasked ticks
          | true => cases hmove; exact .asked ticks
      | _ => cases hmove
  | asked ticks =>
      cases o with
      | dtDump => cases hmove; exact .dump ticks
      | _ => cases hmove
  | dumped ticks =>
      cases o with
      | sinkDump => cases hmove; exact .sinkDump ticks
      | _ => cases hmove
  | clock =>
      cases o with
      | traffic o =>
          cases o with
          | server o =>
              cases o with
              | time => cases hmove; exact .clock ans
              | _ => cases hmove
          | _ => cases hmove
      | _ => cases hmove
  | chains now =>
      cases o with
      | traffic o =>
          cases o with
          | chains => cases hmove; exact .walk now ans
          | _ => cases hmove
      | _ => cases hmove
  | sweeping now p rest =>
      cases o with
      | traffic o =>
          cases o with
          | loadSeen q =>
              obtain ⟨rfl, hnext⟩ := Option.ite_none_right_eq_some.mp hmove
              by_cases hlate : now - ans > HEARTBEAT_TIMEOUT_S
              · rw [if_pos hlate] at hnext
                cases hnext
                exact .late q rest hlate
              · rw [if_neg hlate] at hnext
                cases hnext
                exact .fresh q rest hlate
          | _ => cases hmove
      | _ => cases hmove
  | marking now p rest =>
      cases o with
      | traffic o =>
          cases o with
          | server o =>
              cases o with
              | device q a =>
                  cases a with
                  | storeState v =>
                      cases v with
                      | offline =>
                          obtain ⟨rfl, hnext⟩ := Option.ite_none_right_eq_some.mp hmove
                          cases hnext
                          exact .mark now q rest
                      | online => cases hmove
                  | _ => cases hmove
              | _ => cases hmove
          | _ => cases hmove
      | _ => cases hmove
  | other =>
      have hnot : reaps o = false := by
        cases hreaps : reaps o with
        | false => rfl
        | true =>
            rw [next, hreaps] at hmove
            cases hmove
      rw [next, hnot] at hmove
      cases hmove
      exact .other hnot

end ReapStage

/-- The stage at which a turn starts. -/
def DaemonPc.At : DaemonPc → ReapStage → Prop
  | .reaper ticks, stage => ticks < SWEEP_PERIOD_TICKS ∧ stage = .top ticks
  | _, stage => stage = .other

/-- The stage at which a thread starts. -/
def DaemonKind.stage : DaemonKind → ReapStage
  | .reaper => .top 0
  | _ => .other

theorem DaemonKind.start_at (kind : DaemonKind) : kind.start.At kind.stage := by
  cases kind with
  | reaper => exact ⟨by decide, rfl⟩
  | _ => rfl

theorem other_follows {α : Type} (p : TrafficProc α) :
    (onTable p).Follows ReapStage.next (fun stage _ => stage = .other) .other := by
  induction p with
  | ret value => rfl
  | op o next ih => exact fun ans => ⟨.other, rfl, ih ans⟩

theorem sweepDevices_follows (now : Int) (ps : List Nat) :
    (onTable (sweepDevices now HEARTBEAT_TIMEOUT_S ps)).Follows ReapStage.next (fun stage _ => stage = .top 0)
      (.sweepOn now ps) := by
  induction ps with
  | nil => rfl
  | cons p rest ih =>
      intro seen
      refine ⟨_, if_pos rfl, ?_⟩
      by_cases hlate : now - seen > HEARTBEAT_TIMEOUT_S
      · rw [if_pos hlate]
        show Proc.Follows _ _ _ (onTable (if now - seen > HEARTBEAT_TIMEOUT_S then _ else _))
        rw [if_pos hlate]
        exact fun _ => ⟨_, if_pos rfl, ih⟩
      · rw [if_neg hlate]
        show Proc.Follows _ _ _ (onTable (if now - seen > HEARTBEAT_TIMEOUT_S then _ else _))
        rw [if_neg hlate]
        exact ih

theorem reaperTick_follows (ticks : Nat) :
    (reaperTick ticks).Follows ReapStage.next (Monitor.Turned DaemonPc.At fun _ stage => stage = .other)
      (.ticked ticks) := by
  unfold reaperTick ReapStage.ticked
  split_ifs with hdue
  · intro now
    refine ⟨.chains now, rfl, fun ps => ⟨.sweepOn now ps, rfl, ?_⟩⟩
    refine (sweepDevices_follows now ps).bind ?_
    rintro stage _ rfl
    exact ⟨by decide, rfl⟩
  · exact ⟨Nat.lt_of_not_le hdue, rfl⟩

theorem reaperThread_follows (ticks : Nat) :
    (reaperThread ticks).Follows ReapStage.next (Monitor.Turned DaemonPc.At fun _ stage => stage = .other)
      (.top ticks) := by
  intro running
  cases running with
  | false => exact ⟨.other, rfl, rfl⟩
  | true =>
      refine ⟨.awake ticks, rfl, fun _ => ⟨.slept ticks, rfl, fun requested => ?_⟩⟩
      cases requested with
      | false => exact ⟨.ticked ticks, rfl, reaperTick_follows ticks⟩
      | true =>
          exact ⟨.asked ticks, rfl, fun _ => ⟨.dumped ticks, rfl, fun _ => ⟨.ticked ticks, rfl,
            reaperTick_follows ticks⟩⟩⟩

theorem daemonBody_follows (host : Endian) (pc : DaemonPc) (stage : ReapStage) (hstage : pc.At stage) :
    (daemonBody host pc).Follows ReapStage.next (Monitor.Turned DaemonPc.At fun _ stage => stage = .other) stage := by
  cases pc with
  | reaper ticks =>
      obtain ⟨-, rfl⟩ := hstage
      exact reaperThread_follows ticks
  | udp =>
      obtain rfl : stage = .other := hstage
      intro running
      cases running with
      | false => exact ⟨.other, rfl, rfl⟩
      | true =>
          refine ⟨.other, rfl, fun got => ⟨.other, rfl, ?_⟩⟩
          exact (other_follows _).bind fun stage _ hstage => hstage
  | signals pending =>
      obtain rfl : stage = .other := hstage
      cases pending with
      | nil => rfl
      | cons signal pending =>
          cases signal with
          | usr1 => exact fun _ => ⟨.other, rfl, rfl⟩
          | stop => exact fun _ => ⟨.other, rfl, rfl⟩
  | worker calls =>
      obtain rfl : stage = .other := hstage
      cases calls with
      | nil => rfl
      | cons call calls => exact (other_follows _).bind fun stage _ hstage => hstage

section Threads

variable {ι : Type} [DecidableEq ι]

/-- The stage of each thread, with what it has done. -/
theorem daemon_stage (host : Endian) (kinds : ι → DaemonKind) (conns : ι → Conn)
    (datagrams : List (Option (List UInt8))) (ctx : ServerCtx) (schedule : List ι) (i : ι) :
    ∃ stage, ReapStage.next.Accepts (kinds i).stage
        (Pool.eventsOf (daemonRun host kinds conns datagrams ctx schedule).log i) stage ∧
      (((daemonRun host kinds conns datagrams ctx schedule).threads i).finished = true → stage = .other) := by
  have hstands := Pool.thread_stands (daemonBody host) daemonHandler (fun i => (kinds i).start) conns
    (.start datagrams ctx) schedule i
  obtain ⟨stage, haccepts, htracks⟩ := hstands.accepts (daemonBody_follows host) (kinds i).start_at
  refine ⟨stage, haccepts, ?_⟩
  intro hfinished
  obtain ⟨r, hr⟩ := Thread.finished_iff.mp hfinished
  unfold daemonRun at hr
  rw [hr] at htracks
  exact htracks

end Threads

/-! ### Dumps on request -/

/-- A SIGUSR1. -/
def isRequest (e : Event DaemonSig) : Bool := e.op = .storeDump

/-- An exchange that found a request. -/
def takesRequest : Event DaemonSig → Bool
  | ⟨.exchangeDump, requested⟩ => requested
  | _ => false

section Requests

variable {ι : Type}

/-- A request has come since the last exchange. -/
def Requested (log : List (ι × Event DaemonSig)) : Prop :=
  ∃ earlier j between, log = earlier ++ (j, ⟨.storeDump, ()⟩) :: between ∧
    ∀ entry ∈ between, entry.2.op ≠ .exchangeDump

theorem requested_append {log : List (ι × Event DaemonSig)} {i : ι} {e : Event DaemonSig} :
    Requested (log ++ [(i, e)]) ↔ e.op = .storeDump ∨ (e.op ≠ .exchangeDump ∧ Requested log) := by
  constructor
  · rintro ⟨earlier, j, between, hlog, hbetween⟩
    rcases List.eq_nil_or_concat between with rfl | ⟨between', last, rfl⟩
    · obtain ⟨-, hlast⟩ := List.append_inj' hlog rfl
      cases hlast
      exact Or.inl rfl
    · rw [List.concat_eq_append, ← List.cons_append, ← List.append_assoc] at hlog
      obtain ⟨rfl, hlast⟩ := List.append_inj' hlog rfl
      cases hlast
      rw [List.concat_eq_append] at hbetween
      refine Or.inr ⟨hbetween (i, e) (by simp), earlier, j, between', rfl, ?_⟩
      exact fun entry hentry => hbetween entry (List.mem_append_left _ hentry)
  · rintro (hop | ⟨hop, earlier, j, between, rfl, hbetween⟩)
    · obtain ⟨o, ans⟩ := e
      cases hop
      exact ⟨log, i, [], rfl, by simp⟩
    · refine ⟨earlier, j, between ++ [(i, e)], by simp, ?_⟩
      intro entry hentry
      rcases List.mem_append.mp hentry with hentry | hentry
      · exact hbetween entry hentry
      · rw [List.mem_singleton.mp hentry]
        exact hop

/-- The flag says whether a request is waiting, and every request is taken at most once. -/
structure FlagTracks (log : List (ι × Event DaemonSig)) (w : Daemons) : Prop where
  flag : w.dumpRequested = true ↔ Requested log
  taken : log.countP (fun entry => takesRequest entry.2) + (if w.dumpRequested then 1 else 0) ≤
    log.countP fun entry => isRequest entry.2

/-- An operation that has nothing to do with the flag. -/
theorem FlagTracks.skip {log : List (ι × Event DaemonSig)} {w w' : Daemons} (hlog : FlagTracks log w) {i : ι}
    {e : Event DaemonSig} (hflag : w'.dumpRequested = w.dumpRequested) (hdump : e.op ≠ .storeDump)
    (hexchange : e.op ≠ .exchangeDump) (htakes : takesRequest e = false) : FlagTracks (log ++ [(i, e)]) w' where
  flag := by
    rw [hflag, requested_append, hlog.flag]
    exact ⟨fun h => Or.inr ⟨hexchange, h⟩, fun h => (h.resolve_left hdump).2⟩
  taken := by
    rw [hflag]
    simpa [htakes, isRequest, hdump] using hlog.taken

theorem FlagTracks.step {log : List (ι × Event DaemonSig)} {w : Daemons} (hlog : FlagTracks log w) (i : ι)
    (o : DaemonOp) (conn : Conn) :
    FlagTracks (log ++ [(i, ⟨o, (daemonHandler o (conn, w)).1⟩)]) (daemonHandler o (conn, w)).2.2 := by
  cases o with
  | storeDump =>
      refine ⟨?_, ?_⟩
      · rw [requested_append]
        exact ⟨fun _ => Or.inl rfl, fun _ => rfl⟩
      · have htaken := hlog.taken
        rw [List.countP_append, List.countP_append]
        show _ + 0 + 1 ≤ _ + 1
        omega
  | exchangeDump =>
      refine ⟨?_, ?_⟩
      · rw [requested_append]
        constructor
        · intro h
          cases h
        · rintro (h | ⟨h, -⟩)
          · cases h
          · exact absurd rfl h
      · have htaken := hlog.taken
        rw [List.countP_append, List.countP_append, List.countP_singleton]
        exact htaken
  | loadRunning => exact hlog.skip rfl (fun h => by cases h) (fun h => by cases h) rfl
  | recvfrom => exact hlog.skip rfl (fun h => by cases h) (fun h => by cases h) rfl
  | usleep => exact hlog.skip rfl (fun h => by cases h) (fun h => by cases h) rfl
  | dtDump => exact hlog.skip rfl (fun h => by cases h) (fun h => by cases h) rfl
  | sinkDump => exact hlog.skip rfl (fun h => by cases h) (fun h => by cases h) rfl
  | traffic o => exact hlog.skip rfl (fun h => by cases h) (fun h => by cases h) rfl
  | storeStopped => exact hlog.skip rfl (fun h => by cases h) (fun h => by cases h) rfl

/-- A dump that is owed at this stage. -/
def ReapStage.owed : ReapStage → Nat
  | .asked _ => 1
  | _ => 0

variable [DecidableEq ι]

end Requests

/-! ### Silence -/

/-- The event marks the device at `p` OFFLINE. -/
def marks (p : Nat) (e : Event DaemonSig) : Bool := e.op = .traffic (.server (.device p (.storeState .offline)))

/-- The event refreshes the device at `p`. -/
def refreshes (p : Nat) : Event DaemonSig → Bool
  | ⟨.traffic (.server (.device q (.storeSeen _))), _⟩ => q = p
  | ⟨.traffic (.server (.device q (.storeState .online))), _⟩ => q = p
  | _ => false

/-- The time read by the event. -/
def timeRead : Event DaemonSig → Option Int
  | ⟨.traffic (.server .time), now⟩ => some now
  | _ => none

def isSleep (e : Event DaemonSig) : Bool := e.op = .usleep

/-- What the event tells about the device at `p`: it is in its chain, it was last seen at `seen`, and that is more
than the timeout ago. -/
structure SeesLate (p : Nat) (seen : Int) (e : Event DaemonSig) : Prop where
  clock : ∀ now, e = ⟨.traffic (.server .time), now⟩ → now - seen > HEARTBEAT_TIMEOUT_S
  chain : ∀ ps, e = ⟨.traffic .chains, ps⟩ → p ∈ ps
  load : ∀ v, e = ⟨.traffic (.loadSeen p), v⟩ → v = seen

/-- How many ticks the reaper can have slept without marking the device at `p`: a sweep that began earlier may have
passed it, the next one will not. -/
def ReapStage.Behind (p : Nat) (seen : Int) : ReapStage → Nat → Prop
  | .top ticks, n => n ≤ ticks ∧ ticks < SWEEP_PERIOD_TICKS
  | .awake ticks, n => n ≤ ticks ∧ ticks < SWEEP_PERIOD_TICKS
  | .slept ticks, n => n ≤ ticks + 1 ∧ ticks < SWEEP_PERIOD_TICKS
  | .asked ticks, n => n ≤ ticks + 1 ∧ ticks < SWEEP_PERIOD_TICKS
  | .dumped ticks, n => n ≤ ticks + 1 ∧ ticks < SWEEP_PERIOD_TICKS
  | .clock, n => n ≤ SWEEP_PERIOD_TICKS
  | .chains now, n => n = 0 ∨ (n ≤ SWEEP_PERIOD_TICKS ∧ now - seen > HEARTBEAT_TIMEOUT_S)
  | .sweeping now q rest, n =>
      n = 0 ∨ (n ≤ SWEEP_PERIOD_TICKS ∧ now - seen > HEARTBEAT_TIMEOUT_S ∧ p ∈ q :: rest)
  | .marking now q rest, n =>
      n = 0 ∨ (n ≤ SWEEP_PERIOD_TICKS ∧ now - seen > HEARTBEAT_TIMEOUT_S ∧ p ∈ q :: rest)
  | .other, n => n ≤ SWEEP_PERIOD_TICKS

namespace ReapStage

variable {p : Nat} {seen : Int} {stage stage' : ReapStage} {n : Nat} {e : Event DaemonSig}

theorem Behind.le (hbehind : stage.Behind p seen n) : n ≤ SWEEP_PERIOD_TICKS := by
  cases stage with
  | top ticks => exact hbehind.1.trans hbehind.2.le
  | awake ticks => exact hbehind.1.trans hbehind.2.le
  | slept ticks => exact hbehind.1.trans hbehind.2
  | asked ticks => exact hbehind.1.trans hbehind.2
  | dumped ticks => exact hbehind.1.trans hbehind.2
  | clock => exact hbehind
  | chains now => exact hbehind.elim (fun h => h ▸ Nat.zero_le _) And.left
  | sweeping now q rest => exact hbehind.elim (fun h => h ▸ Nat.zero_le _) And.left
  | marking now q rest => exact hbehind.elim (fun h => h ▸ Nat.zero_le _) And.left
  | other => exact hbehind

theorem behind_ticked {ticks : Nat} (hn : n ≤ ticks + 1) (hticks : ticks < SWEEP_PERIOD_TICKS) :
    (ticked ticks).Behind p seen n := by
  unfold ticked
  split_ifs with hdue
  · exact hn.trans hticks
  · exact ⟨hn, Nat.lt_of_not_le hdue⟩

/-- A sweep with the device still to come, or one from before. -/
theorem behind_sweepOn {now : Int} {ps : List Nat}
    (hn : n = 0 ∨ (n ≤ SWEEP_PERIOD_TICKS ∧ now - seen > HEARTBEAT_TIMEOUT_S ∧ p ∈ ps)) :
    (sweepOn now ps).Behind p seen n := by
  cases ps with
  | nil =>
      rcases hn with rfl | ⟨-, -, hmem⟩
      · exact ⟨Nat.le_refl 0, by decide⟩
      · simp at hmem
  | cons q rest => exact hn

/-- A move that does not mark the device keeps the count. -/
theorem Behind.move (hbehind : stage.Behind p seen n) (hmove : Moves stage e stage') (hlate : SeesLate p seen e) :
    marks p e = true ∨ stage'.Behind p seen (n + if isSleep e then 1 else 0) := by
  cases hmove with
  | stop ticks => exact Or.inr hbehind.le
  | go ticks => exact Or.inr hbehind
  | sleep ticks => exact Or.inr ⟨Nat.add_le_add_right hbehind.1 1, hbehind.2⟩
  | unasked ticks => exact Or.inr (behind_ticked hbehind.1 hbehind.2)
  | asked ticks => exact Or.inr hbehind
  | dump ticks => exact Or.inr hbehind
  | sinkDump ticks => exact Or.inr (behind_ticked hbehind.1 hbehind.2)
  | clock now => exact Or.inr (Or.inr ⟨hbehind, hlate.clock now rfl⟩)
  | walk now ps =>
      refine Or.inr (behind_sweepOn ?_)
      exact hbehind.imp id fun h => ⟨h.1, h.2, hlate.chain ps rfl⟩
  | late q rest _ => exact Or.inr hbehind
  | fresh q rest hfresh =>
      refine Or.inr (behind_sweepOn ?_)
      refine hbehind.imp id fun h => ⟨h.1, h.2.1, ?_⟩
      rcases List.mem_cons.mp h.2.2 with rfl | hrest
      · rw [hlate.load _ rfl] at hfresh
        exact absurd h.2.1 hfresh
      · exact hrest
  | mark now q rest =>
      by_cases hq : q = p
      · subst hq
        exact Or.inl (decide_eq_true rfl)
      · refine Or.inr (behind_sweepOn ?_)
        refine hbehind.imp id fun h => ⟨h.1, h.2.1, ?_⟩
        exact (List.mem_cons.mp h.2.2).resolve_left (Ne.symm hq)
  | other hnot =>
      refine Or.inr ?_
      have hsleep : isSleep e = false := by
        obtain ⟨o, ans⟩ := e
        cases o with
        | usleep => cases hnot
        | _ => rfl
      rw [hsleep]
      exact hbehind

/-- Every stage that is reached is behind by no tick. -/
theorem behind_zero_move (hbehind : stage.Behind p seen 0) (hmove : Moves stage e stage') :
    stage'.Behind p seen 0 := by
  cases hmove with
  | stop ticks => exact Nat.zero_le _
  | go ticks => exact hbehind
  | sleep ticks => exact ⟨Nat.zero_le _, hbehind.2⟩
  | unasked ticks => exact behind_ticked (Nat.zero_le _) hbehind.2
  | asked ticks => exact hbehind
  | dump ticks => exact hbehind
  | sinkDump ticks => exact behind_ticked (Nat.zero_le _) hbehind.2
  | clock now => exact Or.inl rfl
  | walk now ps => exact behind_sweepOn (Or.inl rfl)
  | late q rest _ => exact Or.inl rfl
  | fresh q rest _ => exact behind_sweepOn (Or.inl rfl)
  | mark now q rest => exact behind_sweepOn (Or.inl rfl)
  | other _ => exact Nat.zero_le _

/-- A reaper that sleeps eleven times marks the device. -/
theorem marks_of_sleeps {t : List (Event DaemonSig)} (haccepts : next.Accepts stage t stage')
    (hbehind : stage.Behind p seen 0) (hlate : ∀ e ∈ t, SeesLate p seen e)
    (hsleeps : SWEEP_PERIOD_TICKS < t.countP isSleep) : ∃ e ∈ t, marks p e = true := by
  have hcount : (∀ e ∈ t, SeesLate p seen e) →
      (∃ e ∈ t, marks p e = true) ∨ stage'.Behind p seen (t.countP isSleep) := by
    refine haccepts.keeps (P := fun stage t => (∀ e ∈ t, SeesLate p seen e) →
      (∃ e ∈ t, marks p e = true) ∨ stage.Behind p seen (t.countP isSleep)) ?_ fun _ => Or.inr hbehind
    intro stage t e stage' ih hmove hlate
    rcases ih fun e' he' => hlate e' (List.mem_append_left _ he') with ⟨e', he', hmarks⟩ | hbehind
    · exact Or.inl ⟨e', List.mem_append_left _ he', hmarks⟩
    · rcases hbehind.move (moves_of_next hmove) (hlate e (by simp)) with hmarks | hbehind'
      · exact Or.inl ⟨e, by simp, hmarks⟩
      · rw [List.countP_append, List.countP_singleton]
        exact Or.inr hbehind'
  exact (hcount hlate).resolve_right fun hbehind => Nat.not_le_of_lt hsleeps hbehind.le

end ReapStage

/-- An operation that does not refresh a device keeps when it was last seen, and its state unless it marks it. -/
theorem device_quiet {w : Daemons} {p : Nat} {d : Device} (hd : w.ctx.devices.heap[p]? = some d) (o : DaemonOp)
    (conn : Conn) (hquiet : refreshes p ⟨o, (daemonHandler o (conn, w)).1⟩ = false) :
    ∃ d', (daemonHandler o (conn, w)).2.2.ctx.devices.heap[p]? = some d' ∧ d'.lastSeen = d.lastSeen ∧
      d'.state = if marks p ⟨o, (daemonHandler o (conn, w)).1⟩ then .offline else d.state := by
  cases o with
  | traffic o =>
      have hstep := device_step hd o conn
      cases hstore : storeOn p ⟨o, (trafficHandler o (conn, w.ctx)).1⟩ with
      | none =>
          rw [hstore] at hstep
          refine ⟨d, hstep, rfl, (if_neg ?_).symm⟩
          intro hmarks
          obtain rfl : o = .server (.device p (.storeState .offline)) := DaemonOp.traffic.inj (of_decide_eq_true hmarks)
          simp [storeOn] at hstore
      | some a =>
          rw [hstore] at hstep
          obtain rfl : o = .server (.device p a) := storeOn_eq_some hstore
          refine ⟨a.apply d, hstep, ?_⟩
          cases a with
          | storeSeen v => exact absurd hquiet (by simp [refreshes])
          | storeState v =>
              cases v with
              | online => exact absurd hquiet (by simp [refreshes])
              | offline => exact ⟨rfl, (if_pos (decide_eq_true rfl)).symm⟩
          | _ => exact ⟨rfl, (if_neg (by simp [marks])).symm⟩
  | _ => exact ⟨d, hd, rfl, rfl⟩

theorem chained_quiet {w : Daemons} {p : Nat} (hp : p ∈ w.ctx.devices.chained) (o : DaemonOp) (conn : Conn) :
    p ∈ (daemonHandler o (conn, w)).2.2.ctx.devices.chained := by
  cases o with
  | traffic o =>
      cases o with
      | server o =>
          obtain ⟨b, hb⟩ := DeviceTable.mem_chained.mp hp
          exact DeviceTable.mem_chained.mpr ⟨b, ((extends_step o conn w.ctx).chain b).subset hb⟩
      | _ => exact hp
  | _ => exact hp

section Silence

variable {ι : Type}

/-- The device at `p` while nobody refreshes it: `rest` are the events since it was `d`. -/
structure Unrefreshed (p : Nat) (d : Device) (rest : List (ι × Event DaemonSig)) (w : Daemons) : Prop where
  device : ∃ d', w.ctx.devices.heap[p]? = some d' ∧ d'.lastSeen = d.lastSeen ∧
    ((∃ entry ∈ rest, marks p entry.2 = true) → d'.state = .offline)
  chain : p ∈ w.ctx.devices.chained
  walked : ∀ entry ∈ rest, ∀ ps, entry.2 = ⟨.traffic .chains, ps⟩ → p ∈ ps
  loaded : ∀ entry ∈ rest, ∀ v, entry.2 = ⟨.traffic (.loadSeen p), v⟩ → v = d.lastSeen

theorem Unrefreshed.step {p : Nat} {d : Device} {rest : List (ι × Event DaemonSig)} {w : Daemons}
    (hrest : Unrefreshed p d rest w) (i : ι) (o : DaemonOp) (conn : Conn)
    (hquiet : refreshes p ⟨o, (daemonHandler o (conn, w)).1⟩ = false) :
    Unrefreshed p d (rest ++ [(i, ⟨o, (daemonHandler o (conn, w)).1⟩)]) (daemonHandler o (conn, w)).2.2 := by
  obtain ⟨d₁, hd₁, hseen, hmarked⟩ := hrest.device
  obtain ⟨d₂, hd₂, hseen₂, hstate⟩ := device_quiet hd₁ o conn hquiet
  refine ⟨⟨d₂, hd₂, hseen₂.trans hseen, ?_⟩, chained_quiet hrest.chain o conn, ?_, ?_⟩
  · rintro ⟨entry, hentry, hmarks⟩
    rw [hstate]
    split_ifs with hnow
    · rfl
    · rcases List.mem_append.mp hentry with hbefore | hlast
      · exact hmarked ⟨entry, hbefore, hmarks⟩
      · rw [List.mem_singleton.mp hlast] at hmarks
        exact absurd hmarks hnow
  · intro entry hentry ps he
    rcases List.mem_append.mp hentry with hbefore | hlast
    · exact hrest.walked entry hbefore ps he
    · rw [List.mem_singleton.mp hlast] at he
      cases o with
      | traffic o =>
          cases o with
          | chains =>
              cases he
              exact hrest.chain
          | _ => cases he
      | _ => cases he
  · intro entry hentry v he
    rcases List.mem_append.mp hentry with hbefore | hlast
    · exact hrest.loaded entry hbefore v he
    · rw [List.mem_singleton.mp hlast] at he
      cases o with
      | traffic o =>
          cases o with
          | loadSeen q =>
              cases he
              simp only [daemonHandler, trafficHandler, hd₁, Option.map_some, Option.getD_some]
              exact hseen
          | _ => cases he
      | _ => cases he

variable [DecidableEq ι]

/-- **A silent device goes OFFLINE.** Any threads in any interleaving. A device is in the table, and from some moment
on nobody refreshes it, while every reading of the clock is more than 15 s after it was last seen. Once a reaper has
slept eleven ticks since that moment, the device is OFFLINE. -/
theorem silent_device_offline (host : Endian) (kinds : ι → DaemonKind) (conns : ι → Conn)
    (datagrams : List (Option (List UInt8))) (ctx : ServerCtx) (schedule later : List ι) (p : Nat) (d : Device)
    (hchain : p ∈ (daemonRun host kinds conns datagrams ctx schedule).shared.ctx.devices.chained)
    (hdevice : (daemonRun host kinds conns datagrams ctx schedule).shared.ctx.devices.heap[p]? = some d)
    (rest : List (ι × Event DaemonSig))
    (hrest : (daemonRun host kinds conns datagrams ctx (schedule ++ later)).log =
      (daemonRun host kinds conns datagrams ctx schedule).log ++ rest)
    (hsilent : ∀ entry ∈ rest, refreshes p entry.2 = false)
    (hclock : ∀ entry ∈ rest, ∀ now ∈ timeRead entry.2, now - d.lastSeen > HEARTBEAT_TIMEOUT_S)
    (r : ι) (hticks : 11 ≤ (Pool.eventsOf rest r).countP isSleep) :
    ((daemonRun host kinds conns datagrams ctx (schedule ++ later)).shared.ctx.devices.heap[p]?).map Device.state =
      some .offline := by
  let before := daemonRun host kinds conns datagrams ctx schedule
  have hrun : daemonRun host kinds conns datagrams ctx (schedule ++ later) =
      Pool.run (daemonBody host) daemonHandler before later := Pool.run_append _ _ _ schedule later
  -- what is known of the device in every state on the way
  have hquiet : ∃ rest', (daemonRun host kinds conns datagrams ctx (schedule ++ later)).log = before.log ++ rest' ∧
      ((∀ entry ∈ rest', refreshes p entry.2 = false) →
        Unrefreshed p d rest' (daemonRun host kinds conns datagrams ctx (schedule ++ later)).shared) := by
    rw [hrun]
    refine Pool.shared_invariant (daemonBody host) daemonHandler (fun log w => ∃ rest', log = before.log ++ rest' ∧
      ((∀ entry ∈ rest', refreshes p entry.2 = false) → Unrefreshed p d rest' w)) ?_ ?_ later
    · rintro log w i o conn ⟨rest', rfl, hrest'⟩
      refine ⟨_, List.append_assoc _ _ _, ?_⟩
      intro hsilent'
      exact (hrest' fun entry hentry => hsilent' entry (List.mem_append_left _ hentry)).step i o conn
        (hsilent' _ (List.mem_append_right _ (List.mem_singleton.mpr rfl)))
    · refine ⟨[], (List.append_nil _).symm, fun _ => ⟨⟨d, hdevice, rfl, ?_⟩, hchain, ?_, ?_⟩⟩ <;> simp
  obtain ⟨rest', hrest', hunrefreshed⟩ := hquiet
  obtain rfl : rest = rest' := List.append_cancel_left (hrest.symm.trans hrest')
  obtain ⟨⟨d', hd', -, hmarked⟩, -, hwalked, hloaded⟩ := hunrefreshed hsilent
  -- the reaper has come by
  have hmark : ∃ e ∈ Pool.eventsOf rest r, marks p e = true := by
    obtain ⟨stage, haccepts, -⟩ := daemon_stage host kinds conns datagrams ctx (schedule ++ later) r
    have hevents : Pool.eventsOf (daemonRun host kinds conns datagrams ctx (schedule ++ later)).log r =
        Pool.eventsOf before.log r ++ Pool.eventsOf rest r := by
      rw [hrest]
      simp [Pool.eventsOf, before]
    rw [hevents] at haccepts
    obtain ⟨mid, hfirst, hsecond⟩ := haccepts.split
    have hmid : mid.Behind p d.lastSeen 0 := by
      refine hfirst.keeps (P := fun stage _ => stage.Behind p d.lastSeen 0) ?_ ?_
      · exact fun stage t e stage' hbehind hmove => ReapStage.behind_zero_move hbehind (ReapStage.moves_of_next hmove)
      · cases kinds r with
        | reaper => exact ⟨Nat.le_refl 0, by decide⟩
        | _ => exact Nat.zero_le _
    refine ReapStage.marks_of_sleeps hsecond hmid ?_ hticks
    intro e he
    have hmem : (r, e) ∈ rest := Pool.mem_eventsOf.mp he
    refine ⟨?_, hwalked _ hmem, hloaded _ hmem⟩
    rintro now rfl
    exact hclock _ hmem now rfl
  obtain ⟨e, he, hmarks⟩ := hmark
  rw [hd', Option.map_some, hmarked ⟨(r, e), Pool.mem_eventsOf.mp he, hmarks⟩]

end Silence

/-- A worker hears from device 7 once; the reaper runs on. -/
def oneTouch : Bool → DaemonKind
  | true => .worker [.touch 7 0]
  | false => .reaper

def touchedRun (schedule : List Bool) : DaemonPool Bool :=
  daemonRun .little oneTouch (fun _ => scripted []) []
    { freshServer with choices := { freshServer.choices with times := [0, 100] } } schedule

/-- Eleven ticks after its only packet, and 100 s on the clock, the device is OFFLINE. -/
theorem silent_device_offline_touched :
    ((touchedRun (List.replicate 6 true ++ List.replicate 48 false)).shared.ctx.devices.heap[0]?).map Device.state =
      some .offline := by
  have hextends : (touchedRun (List.replicate 6 true)).log <+:
      (touchedRun (List.replicate 6 true ++ List.replicate 48 false)).log := by
    unfold touchedRun daemonRun
    rw [Pool.run_append]
    exact Pool.run_log_extends _ _ _ _
  exact silent_device_offline .little oneTouch (fun _ => scripted []) [] _ (List.replicate 6 true)
    (List.replicate 48 false) 0 ⟨7, 0, .online, 0, 0, 0, 0, 0, 0⟩ (by decide +kernel) (by decide +kernel) _
    (List.prefix_iff_eq_append.mp hextends).symm (by decide +kernel) (by decide +kernel) false (by decide +kernel)

end PulseLink
