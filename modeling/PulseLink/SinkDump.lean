import PulseLink.BaseGate
import PulseLink.RingLog

/-! `rl_dump` while the workers write. The reaper thread dumps the sink on a signal, at any moment: it reads the two
counters one after the other, then takes the lock and prints them with the newest records. The counters are behind the
ring, since a write counts itself after it has stored its record, and each of the two was read at another moment. -/

namespace PulseLink

/-- The operations of `rl_write`, and those of `rl_dump`; the last one is the section under the lock. -/
inductive SinkOp where
  | rl (o : RlOp)
  | loadWritten
  | loadOverwritten
  | printLocked (written overwritten : UInt64)
  deriving DecidableEq, Repr

abbrev SinkOp.Ans : SinkOp → Type
  | .rl o => o.Ans
  | .loadWritten => UInt64
  | .loadOverwritten => UInt64
  | .printLocked _ _ => RlDump

abbrev SinkSig : Sig := ⟨SinkOp, SinkOp.Ans⟩

/-- What a thread still has to do: records to write, or dumps to print. -/
inductive SinkPc where
  | write (recs : List SensorRecord)
  | dump (times : Nat)
  deriving DecidableEq, Repr

/-- `rl_dump`. -/
def rlDumpSteps : Proc SinkSig RlDump := do
  let written ← Proc.perform (I := SinkSig) .loadWritten
  let lost ← Proc.perform (I := SinkSig) .loadOverwritten
  Proc.perform (I := SinkSig) (.printLocked written lost)

def sinkThread : Loop SinkSig SinkPc Unit
  | .write [] => return .inr ()
  | .write (rec :: recs) => do
      (rlWrite rec).embed SinkOp.rl fun _ ans => ans
      return .inl (.write recs)
  | .dump 0 => return .inr ()
  | .dump (times + 1) => do
      let _ ← rlDumpSteps
      return .inl (.dump times)

def sinkHandler : Handler SinkSig (Unit × RingLog)
  | .rl o, s => rlHandler o s
  | .loadWritten, (u, r) => (r.written, u, r)
  | .loadOverwritten, (u, r) => (r.overwritten, u, r)
  | .printLocked written lost, (u, r) => ({ rlDump r with written := written, overwritten := lost }, u, r)

abbrev SinkThreads (ι : Type) := Pool SinkSig ι SinkPc Unit Unit RingLog

/-- Threads that write and dump after `rl_open`, with steps in the given order. -/
def sinkRun {ι : Type} [DecidableEq ι] (tasks : ι → SinkPc) (before : RingLog) (schedule : List ι) : SinkThreads ι :=
  Pool.run sinkThread sinkHandler (.start sinkThread tasks (fun _ => ()) (rlOpen before)) schedule

/-! ### The part of the writers -/

def rlEvent : Event SinkSig → Option (Event RlSig)
  | ⟨.rl o, ans⟩ => some ⟨o, ans⟩
  | _ => none

def rlLog {ι : Type} (log : List (ι × Event SinkSig)) : List (ι × Event RlSig) :=
  log.filterMap fun entry => (rlEvent entry.2).map fun e => (entry.1, e)

theorem rlLog_concat {ι : Type} (log : List (ι × Event SinkSig)) (i : ι) (e : Event SinkSig) :
    rlLog (log ++ [(i, e)]) = rlLog log ++ ((rlEvent e).map fun e' => (i, e')).toList :=
  filterMap_concat _ log (i, e)

/-! ### Stages -/

/-- Where a thread is in a write or a dump. -/
inductive SinkStage where
  | idle
  /-- a record is stored and not counted -/
  | stored
  /-- counted, and a loss still to be -/
  | late
  | sawWritten (written : UInt64)
  | sawBoth (written lost : UInt64)
  deriving DecidableEq, Repr

def SinkStage.next : Monitor SinkSig SinkStage
  | .idle, ⟨.rl (.append _), _⟩ => some .stored
  | .stored, ⟨.rl .addWritten, w⟩ => some (if w + 1 > RING_SLOTS then .late else .idle)
  | .late, ⟨.rl .addOverwritten, _⟩ => some .idle
  | .idle, ⟨.loadWritten, w⟩ => some (.sawWritten w)
  | .sawWritten w, ⟨.loadOverwritten, l⟩ => some (.sawBoth w l)
  | .sawBoth w l, ⟨.printLocked w' l', _⟩ => if w' = w ∧ l' = l then some .idle else none
  | _, _ => none

/-- Every step of a thread is a move between stages. -/
theorem sinkThread_follows (pc : SinkPc) (a : SinkStage) (ha : a = .idle) :
    (sinkThread pc).Follows SinkStage.next
      (Monitor.Turned (fun (_ : SinkPc) a => a = .idle) fun (_ : Unit) a => a = .idle) a := by
  subst ha
  cases pc with
  | write recs =>
      cases recs with
      | nil => exact rfl
      | cons rec recs =>
          refine fun _ => ⟨.stored, rfl, fun w => ⟨_, rfl, ?_⟩⟩
          show Proc.Follows _ _ _ (Proc.bind (Proc.embed (I := RlSig) (J := SinkSig) SinkOp.rl (fun _ ans => ans)
            (if w + 1 > RING_SLOTS then _ else _)) _)
          split_ifs with hlate
          · exact fun _ => ⟨.idle, rfl, rfl⟩
          · exact rfl
  | dump times =>
      cases times with
      | zero => exact rfl
      | succ times => exact fun w => ⟨_, rfl, fun l => ⟨_, rfl, fun d => ⟨.idle, if_pos ⟨rfl, rfl⟩, rfl⟩⟩⟩

/-! ### The books -/

/-- What a dump has read is at most what the ring has seen by now. -/
def SinkStage.Within (n : Nat) : SinkStage → Prop
  | .sawWritten w => w.toNat ≤ n
  | .sawBoth w l => w.toNat ≤ n ∧ l.toNat ≤ n - 1024
  | _ => True

theorem SinkStage.Within.mono {n m : Nat} (hle : n ≤ m) {a : SinkStage} (ha : a.Within n) : a.Within m := by
  cases a with
  | sawWritten w => exact Nat.le_trans ha hle
  | sawBoth w l => exact ⟨ha.1.trans hle, ha.2.trans (Nat.sub_le_sub_right hle _)⟩
  | _ => trivial

/-- The threads at a stage. -/
def countAt {ι : Type} [Fintype ι] (a : SinkStage) (st : ι → SinkStage) : Nat := ∑ i, if st i = a then 1 else 0

theorem countAt_update {ι : Type} [Fintype ι] [DecidableEq ι] (a : SinkStage) (st : ι → SinkStage) (i : ι)
    (b : SinkStage) :
    countAt a (Function.update st i b) + (if st i = a then 1 else 0) = countAt a st + if b = a then 1 else 0 :=
  sum_update_add (Finset.mem_univ i) (fun c => if c = a then 1 else 0) st b

/-- The ring, the counters and the stages of the threads tell the same story. -/
structure SinkBooks {ι : Type} [Fintype ι] (st : ι → SinkStage) (log : List (ι × Event SinkSig)) (r : RingLog) :
    Prop where
  tracks : RlTracks (rlLog log) r
  stored : (appendsOf (rlLog log)).length = (countsOf (rlLog log)).length + countAt .stored st
  late : (appendsOf (rlLog log)).length < 2 ^ 64 →
    lossesOf (rlLog log) + countAt .late st = (countsOf (rlLog log)).length - 1024
  seen : (appendsOf (rlLog log)).length < 2 ^ 64 → ∀ i, (st i).Within (appendsOf (rlLog log)).length

section Books

variable {ι : Type} [Fintype ι] [DecidableEq ι] {st : ι → SinkStage} {log : List (ι × Event SinkSig)} {r : RingLog}
  {i : ι}

omit [DecidableEq ι] in
theorem SinkBooks.start (before : RingLog) :
    SinkBooks (fun _ : ι => SinkStage.idle) ([] : List (ι × Event SinkSig)) (rlOpen before) where
  tracks := tracks_open before
  stored := by simp [rlLog, appendsOf, countsOf, countAt]
  late _ := by simp [rlLog, lossesOf, countsOf, countAt]
  seen _ _ := trivial

omit [Fintype ι] in
/-- The bounds of everyone when thread `i` goes on. -/
theorem within_update {n m : Nat} (hle : n ≤ m) (hseen : ∀ j, (st j).Within n) {a : SinkStage} (ha : a.Within m)
    (j : ι) : (Function.update st i a j).Within m := by
  by_cases hj : j = i
  · subst hj
    rwa [Function.update_self]
  · rw [Function.update_of_ne hj]
    exact (hseen j).mono hle

theorem SinkBooks.append (hbooks : SinkBooks st log r) (hi : st i = .idle) (rec : SensorRecord) :
    SinkBooks (Function.update st i .stored) (log ++ [(i, ⟨.rl (.append rec), ()⟩)]) (r.append rec) := by
  have hlog : rlLog (log ++ [(i, ⟨.rl (.append rec), ()⟩)]) = rlLog log ++ [(i, ⟨.append rec, ()⟩)] :=
    rlLog_concat _ _ _
  have happends : (appendsOf (rlLog log ++ [(i, ⟨.append rec, ()⟩)])).length = (appendsOf (rlLog log)).length + 1 := by
    rw [appendsOf_concat]
    exact List.length_append
  have hcounts : countsOf (rlLog log ++ [(i, ⟨.append rec, ()⟩)]) = countsOf (rlLog log) :=
    (countsOf_concat _ _ _).trans (List.append_nil _)
  have hlosses : lossesOf (rlLog log ++ [(i, ⟨.append rec, ()⟩)]) = lossesOf (rlLog log) := lossesOf_concat _ _ _
  have hstored := countAt_update .stored st i .stored
  have hlate := countAt_update .late st i .stored
  rw [hi] at hstored hlate
  simp only [reduceCtorEq, if_false, if_true] at hstored hlate
  have hbook := hbooks.stored
  refine ⟨?_, ?_, ?_, ?_⟩
  · rw [hlog]
    exact hbooks.tracks.append i rec
  · rw [hlog, happends, hcounts]
    omega
  · rw [hlog, happends, hcounts, hlosses]
    intro hlt
    have hbook' := hbooks.late (by omega)
    omega
  · rw [hlog, happends]
    intro hlt
    exact within_update (Nat.le_succ _) (hbooks.seen (by omega)) trivial

theorem SinkBooks.addWritten (hbooks : SinkBooks st log r) (hi : st i = .stored) :
    SinkBooks (Function.update st i (if r.written + 1 > RING_SLOTS then .late else .idle))
      (log ++ [(i, ⟨.rl .addWritten, r.written⟩)]) { r with written := r.written + 1 } := by
  have hlog : rlLog (log ++ [(i, ⟨.rl .addWritten, r.written⟩)]) = rlLog log ++ [(i, ⟨.addWritten, r.written⟩)] :=
    rlLog_concat _ _ _
  have happends : appendsOf (rlLog log ++ [(i, ⟨.addWritten, r.written⟩)]) = appendsOf (rlLog log) :=
    (appendsOf_concat _ _ _).trans (List.append_nil _)
  have hcounts : (countsOf (rlLog log ++ [(i, ⟨.addWritten, r.written⟩)])).length =
      (countsOf (rlLog log)).length + 1 := by
    rw [countsOf_concat]
    exact List.length_append
  have hlosses : lossesOf (rlLog log ++ [(i, ⟨.addWritten, r.written⟩)]) = lossesOf (rlLog log) :=
    lossesOf_concat _ _ _
  have hnone : ∀ a, a = .late ∨ a = .idle → a ≠ SinkStage.stored := by
    rintro a (rfl | rfl) <;> decide
  generalize hnext : (if r.written + 1 > RING_SLOTS then SinkStage.late else .idle) = a
  have hcases : a = .late ∨ a = .idle := by
    rw [← hnext]
    split_ifs
    · exact Or.inl rfl
    · exact Or.inr rfl
  have hstored := countAt_update .stored st i a
  have hlate := countAt_update .late st i a
  rw [hi, if_pos rfl, if_neg (hnone a hcases)] at hstored
  rw [hi, if_neg (by decide)] at hlate
  have hbook := hbooks.stored
  refine ⟨?_, ?_, ?_, ?_⟩
  · rw [hlog]
    exact hbooks.tracks.addWritten i
  · rw [hlog, happends, hcounts]
    omega
  · rw [hlog, happends, hcounts, hlosses]
    intro hlt
    have hbook' := hbooks.late hlt
    have hwritten : r.written.toNat = (countsOf (rlLog log)).length := by
      rw [hbooks.tracks.written]
      exact UInt64.toNat_ofNat_of_lt' (show _ < 2 ^ 64 by omega)
    have hmore : r.written + 1 > RING_SLOTS ↔ 1024 ≤ (countsOf (rlLog log)).length := by
      rw [gt_iff_lt, UInt64.lt_iff_toNat_lt, UInt64.toNat_add, hwritten]
      show 1024 < ((countsOf (rlLog log)).length + 1) % 2 ^ 64 ↔ _
      omega
    by_cases hover : r.written + 1 > RING_SLOTS
    · rw [if_pos hover] at hnext
      subst hnext
      rw [hmore] at hover
      rw [if_pos rfl] at hlate
      omega
    · rw [if_neg hover] at hnext
      subst hnext
      rw [hmore] at hover
      rw [if_neg (by decide)] at hlate
      omega
  · rw [hlog, happends]
    intro hlt
    refine within_update (Nat.le_refl _) (hbooks.seen hlt) ?_
    rcases hcases with rfl | rfl <;> trivial

theorem SinkBooks.addOverwritten (hbooks : SinkBooks st log r) (hi : st i = .late) :
    SinkBooks (Function.update st i .idle) (log ++ [(i, ⟨.rl .addOverwritten, r.overwritten⟩)])
      { r with overwritten := r.overwritten + 1 } := by
  have hlog : rlLog (log ++ [(i, ⟨.rl .addOverwritten, r.overwritten⟩)]) =
      rlLog log ++ [(i, ⟨.addOverwritten, r.overwritten⟩)] := rlLog_concat _ _ _
  have happends : appendsOf (rlLog log ++ [(i, ⟨.addOverwritten, r.overwritten⟩)]) = appendsOf (rlLog log) :=
    (appendsOf_concat _ _ _).trans (List.append_nil _)
  have hcounts : countsOf (rlLog log ++ [(i, ⟨.addOverwritten, r.overwritten⟩)]) = countsOf (rlLog log) :=
    (countsOf_concat _ _ _).trans (List.append_nil _)
  have hlosses : lossesOf (rlLog log ++ [(i, ⟨.addOverwritten, r.overwritten⟩)]) = lossesOf (rlLog log) + 1 :=
    lossesOf_concat _ _ _
  have hstored := countAt_update .stored st i .idle
  have hlate := countAt_update .late st i .idle
  rw [hi] at hstored hlate
  simp only [reduceCtorEq, if_false, if_true] at hstored hlate
  have hbook := hbooks.stored
  refine ⟨?_, ?_, ?_, ?_⟩
  · rw [hlog]
    exact hbooks.tracks.addOverwritten i
  · rw [hlog, happends, hcounts]
    omega
  · rw [hlog, happends, hcounts, hlosses]
    intro hlt
    have hbook' := hbooks.late hlt
    omega
  · rw [hlog, happends]
    intro hlt
    exact within_update (Nat.le_refl _) (hbooks.seen hlt) trivial

/-- A step of a dump leaves the ring alone. -/
theorem SinkBooks.dump (hbooks : SinkBooks st log r) {a : SinkStage} {e : Event SinkSig} (he : rlEvent e = none)
    (hfrom : st i ≠ .stored ∧ st i ≠ .late) (hto : a ≠ .stored ∧ a ≠ .late)
    (ha : (appendsOf (rlLog log)).length < 2 ^ 64 → a.Within (appendsOf (rlLog log)).length) :
    SinkBooks (Function.update st i a) (log ++ [(i, e)]) r := by
  have hlog : rlLog (log ++ [(i, e)]) = rlLog log := by
    rw [rlLog_concat, he]
    exact List.append_nil _
  have hstored := countAt_update .stored st i a
  have hlate := countAt_update .late st i a
  rw [if_neg hfrom.1, if_neg hto.1] at hstored
  rw [if_neg hfrom.2, if_neg hto.2] at hlate
  have hbook := hbooks.stored
  refine ⟨?_, ?_, ?_, ?_⟩
  · rw [hlog]
    exact hbooks.tracks
  · rw [hlog]
    omega
  · rw [hlog]
    intro hlt
    have hbook' := hbooks.late hlt
    omega
  · rw [hlog]
    intro hlt
    exact within_update (Nat.le_refl _) (hbooks.seen hlt) (ha hlt)

omit [DecidableEq ι] in
/-- What the counters show is behind the ring. -/
theorem SinkBooks.counters_le (hbooks : SinkBooks st log r) (hlt : (appendsOf (rlLog log)).length < 2 ^ 64) :
    r.written.toNat ≤ (appendsOf (rlLog log)).length ∧
      r.overwritten.toNat ≤ (appendsOf (rlLog log)).length - 1024 := by
  have hstored := hbooks.stored
  have hlate := hbooks.late hlt
  rw [hbooks.tracks.written, hbooks.tracks.overwritten, UInt64.toNat_ofNat_of_lt' (show _ < 2 ^ 64 by omega),
    UInt64.toNat_ofNat_of_lt' (show _ < 2 ^ 64 by omega)]
  omega

/-- Every move of a thread keeps the books. -/
theorem SinkBooks.step (hbooks : SinkBooks st log r) {o : SinkOp} {a : SinkStage}
    (hmove : SinkStage.next (st i) ⟨o, (sinkHandler o ((), r)).1⟩ = some a) :
    SinkBooks (Function.update st i a) (log ++ [(i, ⟨o, (sinkHandler o ((), r)).1⟩)]) (sinkHandler o ((), r)).2.2 := by
  generalize hi : st i = b at hmove
  cases o with
  | rl o =>
      cases o with
      | append rec =>
          cases b <;> cases hmove
          exact hbooks.append hi rec
      | addWritten =>
          cases b <;> cases hmove
          exact hbooks.addWritten hi
      | addOverwritten =>
          cases b <;> cases hmove
          exact hbooks.addOverwritten hi
  | loadWritten =>
      cases b <;> cases hmove
      refine hbooks.dump rfl (by rw [hi]; decide) ⟨SinkStage.noConfusion, SinkStage.noConfusion⟩ ?_
      exact fun hlt => (hbooks.counters_le hlt).1
  | loadOverwritten =>
      cases b with
      | sawWritten w =>
          cases hmove
          refine hbooks.dump rfl ?_ ?_ ?_
          · rw [hi]
            exact ⟨SinkStage.noConfusion, SinkStage.noConfusion⟩
          · exact ⟨SinkStage.noConfusion, SinkStage.noConfusion⟩
          · intro hlt
            have hseen := hbooks.seen hlt i
            rw [hi] at hseen
            exact ⟨hseen, (hbooks.counters_le hlt).2⟩
      | _ => cases hmove
  | printLocked w l =>
      cases b with
      | sawBoth w' l' =>
          obtain ⟨-, ha⟩ := Option.ite_none_right_eq_some.mp hmove
          cases ha
          refine hbooks.dump rfl ?_ (by decide) fun _ => trivial
          rw [hi]
          exact ⟨SinkStage.noConfusion, SinkStage.noConfusion⟩
      | _ => cases hmove

end Books

/-- In every reachable state the books are kept. -/
theorem sink_books {ι : Type} [Fintype ι] [DecidableEq ι] (tasks : ι → SinkPc) (before : RingLog)
    (schedule : List ι) :
    ∃ st, Pool.Monitored SinkStage.next (fun _ a => a = .idle) (fun _ a => a = .idle) (fun _ => .idle) SinkBooks
      (sinkRun tasks before schedule) st := by
  rw [sinkRun, ← Pool.gatedRun_open]
  refine Pool.monitored sinkThread_follows (fun _ => rfl) (SinkBooks.start before) ?_ schedule
  intro pool st i o next a hpool _ _ hmove
  exact hpool.holds.step hmove

/-- **A dump at any moment.** Any number of threads write records and dump the sink, under any interleaving of their
steps. Whenever a dump prints, with `n` records stored so far, fewer than 2^64: its records are the newest five in the
order of the lock, newest first, and its fill is that of the ring; the counters it prints are not ahead of the ring. -/
theorem dump_any_time {ι : Type} [Fintype ι] [DecidableEq ι] (tasks : ι → SinkPc) (before : RingLog)
    (schedule : List ι) (log₁ log₂ : List (ι × Event SinkSig)) (i : ι) (written lost : UInt64) (d : RlDump)
    (hlog : (sinkRun tasks before schedule).log = log₁ ++ (i, ⟨.printLocked written lost, d⟩) :: log₂)
    (hlt : (appendsOf (rlLog log₁)).length < 2 ^ 64) :
    let n := (appendsOf (rlLog log₁)).length
    d.lines = (appendsOf (rlLog log₁)).reverse.take 5 ∧ d.fill.toNat = min n 1024 ∧ d.written.toNat ≤ n ∧
      d.overwritten.toNat ≤ n - 1024 := by
  intro n
  rw [sinkRun, ← Pool.gatedRun_open] at hlog
  obtain ⟨schedule', j, o, next, hbefore, -, hthread, hentry⟩ := Pool.gatedRun_split (fun _ _ => true) sinkThread
    sinkHandler rfl hlog
  rw [Pool.gatedRun_open] at hbefore hthread hentry
  obtain ⟨st, hpool⟩ := sink_books tasks before schedule'
  rw [sinkRun] at hpool
  generalize Pool.run sinkThread sinkHandler (.start sinkThread tasks (fun _ => ()) (rlOpen before)) schedule' = pool
    at hpool hbefore hthread hentry
  subst hbefore
  obtain ⟨a, hmove, -⟩ := hpool.op (h := sinkHandler) hthread
  cases hentry
  have hbooks := hpool.holds
  have hstage : st i = .sawBoth written lost := by
    generalize st i = b at hmove
    cases b with
    | sawBoth w l =>
        obtain ⟨⟨rfl, rfl⟩, -⟩ := Option.ite_none_right_eq_some.mp hmove
        rfl
    | _ => cases hmove
  have hseen := hbooks.seen hlt i
  rw [hstage] at hseen
  exact ⟨hbooks.tracks.lines_eq hlt, hbooks.tracks.toNat_fill hlt, hseen.1, hseen.2⟩

/-- Two workers with a record each and a dump between their steps: the second record is stored and not counted. -/
def dumpTasks : Fin 3 → SinkPc
  | 0 => .write [⟨1, 1, 2150, 4800, 7⟩]
  | 1 => .write [⟨2, 1, 2160, 4700, 8⟩]
  | 2 => .dump 1

def dumpSchedule : List (Fin 3) := [0, 0, 2, 1, 2, 2]

/-- It prints both records and counts one. -/
def dumpShown : RlDump := ⟨1, 0, 2, [⟨2, 1, 2160, 4700, 8⟩, ⟨1, 1, 2150, 4800, 7⟩]⟩

theorem dump_any_time_two :
    (sinkRun dumpTasks zeroLog dumpSchedule).log =
        (sinkRun dumpTasks zeroLog dumpSchedule).log.take 5 ++ [(2, ⟨.printLocked 1 0, dumpShown⟩)] ∧
      dumpShown.lines = (appendsOf (rlLog ((sinkRun dumpTasks zeroLog dumpSchedule).log.take 5))).reverse.take 5 ∧
      dumpShown.written.toNat ≤ 2 := by
  have hlog : (sinkRun dumpTasks zeroLog dumpSchedule).log =
      (sinkRun dumpTasks zeroLog dumpSchedule).log.take 5 ++ (2, ⟨.printLocked 1 0, dumpShown⟩) :: [] := by rfl
  have htwo : (appendsOf (rlLog ((sinkRun dumpTasks zeroLog dumpSchedule).log.take 5))).length = 2 := by rfl
  obtain ⟨hlines, -, hwritten, -⟩ := dump_any_time dumpTasks zeroLog dumpSchedule _ [] 2 1 0 dumpShown hlog
    (by rw [htwo]; decide)
  rw [htwo] at hwritten
  exact ⟨hlog, hlines, hwritten⟩

end PulseLink
