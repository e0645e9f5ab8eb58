import PulseLink.AckSoundness
import PulseLink.Isolation
import PulseLink.Segmentation

/-! A worker on its line. What `read_n` answers is fixed by the connection, so a turn of `client_worker` in front of
a whole packet takes that packet, and one in front of less than a packet waits or leaves, whatever else the server
does. A property of a run that shorter runs have as well holds at every moment of a worker of the server as soon
as it holds at the end of every run of `client_worker` on that line: a worker can be stopped before its next turn. -/

namespace PulseLink

open Bytes Proc

/-! ### Every moment belongs to a run that ends -/

/-- A connection with the given line. -/
def Line.conn (line : Line) : Conn := ⟨line.script, line.after, line.sends, line.sent, true, true⟩

/-- From every place a worker can come to an end: it finds the server stopped before its next turn. -/
theorem worker_finishes (cfg : Config) (pc : WorkerPc) (line : Line) :
    ∃ t why, Loop.Path (clientWorker cfg) pc t why ∧ lineMonitor.Accepts line t line := by
  have hleave : ∀ why, Loop.Path (clientWorker cfg) (.leave why)
      [⟨.closeFd, ()⟩, ⟨.semPost, ()⟩, ⟨.activeSub, ()⟩, ⟨.freeArg, ()⟩] why :=
    fun why => .stop (.op (.op (.op (.op (.ret _)))))
  have hleft : lineMonitor.Accepts line [⟨.closeFd, ()⟩, ⟨.semPost, ()⟩, ⟨.activeSub, ()⟩, ⟨.freeArg, ()⟩] line :=
    .cons rfl (.cons rfl (.cons rfl (.cons rfl (.nil _))))
  have hstops : ∀ l, (clientWorker cfg (.running l)).Path [⟨.loadRunning, false⟩] (.inl (.leave .shutdown)) :=
    fun l => .op (.ret _)
  have hrunning : ∀ l, Loop.Path (clientWorker cfg) (.running l)
      (⟨.loadRunning, false⟩ :: [⟨.closeFd, ()⟩, ⟨.semPost, ()⟩, ⟨.activeSub, ()⟩, ⟨.freeArg, ()⟩]) .shutdown :=
    fun l => .turn (hstops l) (hleave .shutdown)
  cases pc with
  | enter payload =>
      have henters : (clientWorker cfg (.enter payload)).Path [⟨.activeAdd, ()⟩] (.inl (.running (.init payload))) :=
        .op (.ret _)
      exact ⟨_, _, .turn henters (hrunning (.init payload)), .cons rfl (.cons rfl hleft)⟩
  | running l => exact ⟨_, _, hrunning l, .cons rfl hleft⟩
  | leave why => exact ⟨_, why, hleave why, hleft⟩

/-- **Every moment belongs to a run that ends.** -/
theorem stands_extends {cfg : Config} {pc : WorkerPc} {t : List (Event ServerSig)}
    {th : Thread ServerSig WorkerPc ExitReason} (hstands : Pool.Stands (clientWorker cfg) pc t th) {line₀ line : Line}
    (haccepts : lineMonitor.Accepts line₀ t line) :
    ∃ t' why line', Loop.Path (clientWorker cfg) pc (t ++ t') why ∧ lineMonitor.Accepts line₀ (t ++ t') line' := by
  cases th with
  | done why =>
      refine ⟨[], why, line, ?_, ?_⟩
      · rw [List.append_nil]
        exact hstands.path
      · rwa [List.append_nil]
  | busy p =>
      obtain ⟨t₁, t₂, pc', rfl, harrives, hreach⟩ := hstands.inTurn
      have hturn := hreach.exec serverHandler (line.conn, freshServer)
      have hrest : lineMonitor.Accepts line (p.exec serverHandler (line.conn, freshServer)).trace
          (p.exec serverHandler (line.conn, freshServer)).world.1.line :=
        accepts_exec (v := fun w : Conn × ServerCtx => w.1.line) (fun o w => lineMonitor_server o w.1 w.2) p
          (line.conn, freshServer)
      generalize p.exec serverHandler (line.conn, freshServer) = out at hturn hrest
      obtain ⟨x, w, t₃⟩ := out
      cases x with
      | inr why =>
          refine ⟨t₃, why, _, ?_, haccepts.append hrest⟩
          rw [List.append_assoc]
          exact harrives.path (.stop hturn)
      | inl pc'' =>
          obtain ⟨t₄, why, hends, hlast⟩ := worker_finishes cfg pc'' w.1.line
          refine ⟨t₃ ++ t₄, why, _, ?_, haccepts.append (hrest.append hlast)⟩
          rw [← List.append_assoc, List.append_assoc t₁]
          have hpath := harrives.path (Loop.Path.turn hturn hends)
          rwa [← List.append_assoc] at hpath

/-- So what holds at the end of every run on a line, and of every shorter run, holds at every moment. -/
theorem server_worker_moment (boot : Boot) (schedule : List Party) (cfd : Nat) {P : List (Event ServerSig) → Prop}
    (hshorter : ∀ t t', P (t ++ t') → P t)
    (hends : ∀ t why line, Loop.Path (clientWorker boot.cfg) (.enter (boot.payloads cfd)) t why →
      lineMonitor.Accepts (boot.conns cfd).line t line → P t) : P (clientEvents (boot.run schedule) cfd) := by
  obtain ⟨th, hstands⟩ := server_worker_stands boot schedule cfd
  obtain ⟨t', why, line, hpath, haccepts⟩ := stands_extends hstands (server_line boot schedule cfd)
  exact hshorter _ t' (hends _ why line hpath haccepts)

/-! ### Along a line -/

section Line

variable {line line' : Line} {t : List (Event ServerSig)}

theorem accepts_readN {n : Nat} {r : ReadResult} (haccepts : lineMonitor.Accepts line (⟨.readN n, r⟩ :: t) line') :
    r = (readN line.after n [] line.script).1 ∧
      lineMonitor.Accepts { line with script := (readN line.after n [] line.script).2 } t line' := by
  cases haccepts with
  | cons hmove hrest =>
      simp only [lineMonitor] at hmove
      split_ifs at hmove with hr
      cases hmove
      exact ⟨hr, hrest⟩

/-- What a worker does once it has decided takes nothing from the line. -/
theorem acts_script {dev : Option Nat} (hacts : ∀ e ∈ t, Acts dev e.op)
    (haccepts : lineMonitor.Accepts line t line') : line'.script = line.script := by
  induction haccepts with
  | nil line => rfl
  | @cons line line₁ line₂ e t hmove hrest ih =>
      rw [List.forall_mem_cons] at hacts
      rw [ih hacts.2]
      obtain ⟨o, ans⟩ := e
      cases o with
      | readN n => exact hacts.1.elim
      | writeN bs =>
          simp only [lineMonitor] at hmove
          split_ifs at hmove
          cases hmove
          rfl
      | _ =>
          cases hmove
          rfl

variable {cfg : Config} {l : Locals} {x : Turn}

/-- A turn finds the server stopped, or reads a header. -/
theorem turn_reads (hpath : (clientTurn cfg l).Path t x) (hstate : l.state ≠ .closing)
    (haccepts : lineMonitor.Accepts line t line') :
    (x = .inr .shutdown ∧ recordsOf t = []) ∨
      ∃ t', recordsOf t = recordsOf t' ∧
        (afterRead cfg l (readN line.after PL_HDR_SIZE [] line.script).1).Path t' x ∧
        lineMonitor.Accepts { line with script := (readN line.after PL_HDR_SIZE [] line.script).2 } t' line' := by
  rw [clientTurn_eq] at hpath
  obtain ⟨running, t₁, rfl, hrest⟩ := path_ask_iff.mp hpath
  cases haccepts with
  | cons hmove haccepts =>
      cases hmove
      cases running with
      | false =>
          obtain ⟨rfl, rfl⟩ := path_ret_iff.mp hrest
          exact .inl ⟨rfl, rfl⟩
      | true =>
          rw [if_neg (show ¬ true = false by decide), if_neg hstate] at hrest
          obtain ⟨r, t', rfl, hread⟩ := path_ask_iff.mp hrest
          obtain ⟨rfl, haccepts'⟩ := accepts_readN haccepts
          exact .inr ⟨t', rfl, hread, haccepts'⟩

/-- Bytes in front of the reader are read. -/
theorem readN_arrived (after : Afterwards) {script : List Recv} {bs : List UInt8} {rest : List Arrival}
    (harrives : arrivals script = bs.map .byte ++ rest) :
    (readN after bs.length [] script).1 = .count bs ∧ arrivals (readN after bs.length [] script).2 = rest := by
  have hread := readN_readEach after bs.length [] script
  rw [harrives, List.length_nil, Nat.sub_zero, readEach_enough after (Nat.le_refl _), List.take_length,
    List.drop_length] at hread
  exact Prod.mk.inj hread

/-- The end of the line, with `bs` read. -/
theorem readN_runs_dry (after : Afterwards) {n : Nat} {script : List Recv} {bs : List UInt8}
    (harrives : arrivals script = bs.map .byte) (hshort : bs.length < n) :
    (readN after n [] script).1 = after.ends bs ∧ arrivals (readN after n [] script).2 = [] := by
  have hread := readN_readEach after n [] script
  obtain ⟨m, hm⟩ : ∃ m, n - bs.length = m + 1 := ⟨n - bs.length - 1, by omega⟩
  rw [harrives, ← List.append_nil (bs.map _), List.length_nil, Nat.sub_zero,
    readEach_bytes after (Nat.le_of_lt hshort), hm] at hread
  exact Prod.mk.inj hread

theorem readN_timeout (after : Afterwards) {n : Nat} (hn : 0 < n) {script : List Recv} {rest : List Arrival}
    (harrives : arrivals script = .eagain :: rest) :
    (readN after n [] script).1 = .again [] ∧ arrivals (readN after n [] script).2 = rest := by
  have hread := readN_readEach after n [] script
  obtain ⟨m, rfl⟩ : ∃ m, n = m + 1 := ⟨n - 1, by omega⟩
  rw [harrives] at hread
  exact Prod.mk.inj hread

/-- **A turn in front of a whole packet** takes it, unless the server is stopped. -/
theorem turn_takes (hpath : (clientTurn cfg l).Path t x) (hstate : l.state ≠ .closing)
    (haccepts : lineMonitor.Accepts line t line') {type : UInt8} {deviceId : UInt32} {payload : List UInt8}
    {rest : List Arrival} (hpos : payload ≠ []) (hlen : payload.length ≤ 1100)
    (harrives : arrivals line.script = (packetBytes type deviceId payload).map .byte ++ rest) :
    (x = .inr .shutdown ∧ recordsOf t = []) ∨
      ∃ t', recordsOf t = recordsOf t' ∧
        (dispatch cfg (l.received payload) (builtHeader type deviceId payload)).Path t' x ∧
        arrivals line'.script = rest := by
  have hplen := @toNat_builtHeader_len type deviceId payload hlen
  have hmore : (builtHeader type deviceId payload).payloadLen > 0 := by
    rw [gt_iff_lt, UInt16.lt_iff_toNat_lt, hplen]
    exact List.length_pos_iff.mpr hpos
  rw [packetBytes, List.map_append, List.append_assoc] at harrives
  obtain ⟨hread₁, harrives₁⟩ := readN_arrived line.after harrives
  obtain ⟨hread₂, harrives₂⟩ := readN_arrived line.after harrives₁
  rw [PlHeader.length_wire] at hread₁ hread₂ harrives₂
  rcases turn_reads hpath hstate haccepts with hstopped | ⟨t₁, hrecords, hafter, haccepts₁⟩
  · exact .inl hstopped
  have hparse : plParseHeader cfg.host (builtHeader type deviceId payload).wire =
      builtHeader type deviceId payload := by
    have hparsed := plParseHeader_wire cfg.host (builtHeader type deviceId payload) []
    rwa [List.append_nil] at hparsed
  rw [hread₁] at hafter
  simp only [afterRead, PlHeader.length_wire, hparse] at hafter
  rw [if_neg (by decide), if_neg (by simp), handleHeader, checkHeader_built hlen] at hafter
  simp only [recvPayload] at hafter
  rw [if_pos hmore] at hafter
  obtain ⟨r, t₂, rfl, hgot⟩ := path_ask_iff.mp hafter
  rw [hplen] at haccepts₁
  obtain ⟨rfl, haccepts₂⟩ := accepts_readN haccepts₁
  dsimp only at hgot haccepts₂
  rw [hread₂] at hgot
  simp only [if_pos hplen.symm] at hgot
  have hchecked := checkPayload_received cfg l hplen.symm hlen
  rw [Locals.received] at hchecked
  rw [hchecked, if_neg (fun hne => hne rfl)] at hgot
  obtain ⟨_, t₃, rfl, hdispatch⟩ := path_ask_iff.mp hgot
  cases haccepts₂ with
  | cons hmove haccepts₃ =>
      cases hmove
      have hscript := acts_script ((dispatch_acts cfg _ _).path hdispatch).1 haccepts₃
      refine .inr ⟨t₃, hrecords, hdispatch, ?_⟩
      rw [hscript]
      exact harrives₂

/-- The reasons for leaving when the line brings nothing more. -/
def peerGone : List ExitReason := [.closed, .midHeader, .midPayload, .recvError, .idle]

/-- **A turn in front of a timeout** counts it, unless the server is stopped or it was the last to wait for. -/
theorem turn_waits (hpath : (clientTurn cfg l).Path t x) (hstate : l.state ≠ .closing)
    (haccepts : lineMonitor.Accepts line t line') {rest : List Arrival}
    (harrives : arrivals line.script = .eagain :: rest) :
    recordsOf t = [] ∧ (x = .inr .shutdown ∨
      (x = .inr .idle ∧ DEAD_PEER_S ≤ (l.idleTicks + 1) * WORKER_TICK_S) ∨
      (x = .inl { l with idleTicks := l.idleTicks + 1 } ∧ arrivals line'.script = rest)) := by
  rcases turn_reads hpath hstate haccepts with ⟨rfl, hrecords⟩ | ⟨t₁, hrecords, hafter, haccepts₁⟩
  · exact ⟨hrecords, .inl rfl⟩
  obtain ⟨hread, hrest⟩ := readN_timeout line.after (show 0 < PL_HDR_SIZE by decide) harrives
  rw [hread, afterRead] at hafter
  rw [hrecords]
  split_ifs at hafter with hlate
  · obtain ⟨rfl, rfl⟩ := path_ret_iff.mp hafter
    exact ⟨rfl, .inr (.inl ⟨rfl, hlate⟩)⟩
  · obtain ⟨rfl, rfl⟩ := path_ret_iff.mp hafter
    cases haccepts₁
    exact ⟨rfl, .inr (.inr ⟨rfl, hrest⟩)⟩

/-- **A turn in front of less than a packet** stores nothing; the worker leaves, or goes on with an empty line. -/
theorem turn_short (hpath : (clientTurn cfg l).Path t x) (hstate : l.state ≠ .closing)
    (haccepts : lineMonitor.Accepts line t line') {type : UInt8} {deviceId : UInt32} {payload : List UInt8}
    (hlen : payload.length ≤ 1100) {n : Nat} (hn : n < PL_HDR_SIZE + payload.length)
    (harrives : arrivals line.script = ((packetBytes type deviceId payload).take n).map .byte) :
    recordsOf t = [] ∧ ((∃ l', x = .inl l' ∧ l'.state = l.state ∧ arrivals line'.script = []) ∨
      ∃ why, x = .inr why ∧ (why = .shutdown ∨ why ∈ peerGone)) := by
  rcases turn_reads hpath hstate haccepts with ⟨rfl, hrecords⟩ | ⟨t₁, hrecords, hafter, haccepts₁⟩
  · exact ⟨hrecords, .inr ⟨_, rfl, .inl rfl⟩⟩
  rw [hrecords]
  by_cases hheader : n < PL_HDR_SIZE
  · -- not even a header
    have hgot : ((packetBytes type deviceId payload).take n).length < PL_HDR_SIZE := by
      rw [List.length_take]
      omega
    obtain ⟨hread, hrest⟩ := readN_runs_dry line.after harrives hgot
    rw [hread] at hafter
    cases hends : line.after with
    | eof =>
        rw [hends] at hafter
        simp only [Afterwards.ends, afterRead] at hafter
        rw [if_pos (Nat.ne_of_lt hgot)] at hafter
        split_ifs at hafter
        · obtain ⟨rfl, rfl⟩ := path_ret_iff.mp hafter
          exact ⟨rfl, .inr ⟨_, rfl, .inr (by decide)⟩⟩
        · obtain ⟨rfl, rfl⟩ := path_ret_iff.mp hafter
          exact ⟨rfl, .inr ⟨_, rfl, .inr (by decide)⟩⟩
    | eagain =>
        rw [hends] at hafter
        simp only [Afterwards.ends, afterRead] at hafter
        split_ifs at hafter
        · obtain ⟨rfl, rfl⟩ := path_ret_iff.mp hafter
          exact ⟨rfl, .inr ⟨_, rfl, .inr (by decide)⟩⟩
        · obtain ⟨rfl, rfl⟩ := path_ret_iff.mp hafter
          cases haccepts₁
          exact ⟨rfl, .inl ⟨_, rfl, rfl, hrest⟩⟩
    | error =>
        rw [hends] at hafter
        obtain ⟨rfl, rfl⟩ := path_ret_iff.mp hafter
        exact ⟨rfl, .inr ⟨_, rfl, .inr (by decide)⟩⟩
  · -- a header, and not all of its payload
    have hplen := @toNat_builtHeader_len type deviceId payload hlen
    have hcut : arrivals line.script = (builtHeader type deviceId payload).wire.map .byte ++
        (payload.take (n - PL_HDR_SIZE)).map .byte := by
      rw [harrives, packetBytes, List.take_append, PlHeader.length_wire,
        List.take_of_length_le (by rw [PlHeader.length_wire]; omega), List.map_append]
    have hmore : (builtHeader type deviceId payload).payloadLen > 0 := by
      rw [gt_iff_lt, UInt16.lt_iff_toNat_lt, hplen]
      show 0 < payload.length
      omega
    obtain ⟨hread₁, harrives₁⟩ := readN_arrived line.after hcut
    have hparse :
        plParseHeader cfg.host (builtHeader type deviceId payload).wire = builtHeader type deviceId payload := by
      have hparsed := plParseHeader_wire cfg.host (builtHeader type deviceId payload) []
      rwa [List.append_nil] at hparsed
    have hgot : (payload.take (n - PL_HDR_SIZE)).length < payload.length := by
      rw [List.length_take]
      omega
    rw [PlHeader.length_wire] at hread₁ harrives₁
    rw [hread₁] at hafter
    simp only [afterRead, PlHeader.length_wire, hparse] at hafter
    rw [if_neg (by decide), if_neg (by simp), handleHeader, checkHeader_built hlen] at hafter
    simp only [recvPayload] at hafter
    rw [if_pos hmore] at hafter
    obtain ⟨r, t₂, rfl, hleft⟩ := path_ask_iff.mp hafter
    rw [hplen] at haccepts₁
    obtain ⟨rfl, -⟩ := accepts_readN haccepts₁
    dsimp only at hleft
    rw [(readN_runs_dry line.after harrives₁ hgot).1] at hleft
    have hexit : t₂ = [] ∧ x = .inr .midPayload := by
      cases hends : line.after with
      | eof =>
          rw [hends] at hleft
          simp only [Afterwards.ends] at hleft
          rw [hplen, if_neg (Nat.ne_of_lt hgot)] at hleft
          exact path_ret_iff.mp hleft
      | eagain =>
          rw [hends] at hleft
          exact path_ret_iff.mp hleft
      | error =>
          rw [hends] at hleft
          exact path_ret_iff.mp hleft
    obtain ⟨rfl, rfl⟩ := hexit
    exact ⟨rfl, .inr ⟨_, rfl, .inr (by decide)⟩⟩

end Line

end PulseLink
