import PulseLink.BaseGate
import PulseLink.Readout
import PulseLink.TableTraffic

/-! `dt_dump` while other threads use the table. It holds the read lock from the first line to the last, which keeps
the insertions out and nothing else: packets are counted and readings stored while it prints. So the number in its
first line is that of the rows, and each device has one row; but each number in a row is that of some moment, and the
moments differ. -/

namespace PulseLink

open Printf

/-! ### `dt_dump` -/

/-- What a row shows of a device; the id and the session are plain fields, the others atomics. -/
inductive DevField where
  | temp
  | humid
  | ident
  | state
  | ok
  | bad
  deriving DecidableEq, Repr

abbrev DevField.Ans : DevField → Type
  | .temp => Int32
  | .humid => Int32
  | .ident => UInt32 × UInt32
  | .state => DevState
  | .ok => UInt64
  | .bad => UInt64

def DevField.of : (f : DevField) → Device → f.Ans
  | .temp, d => d.lastTemp
  | .humid, d => d.lastHumid
  | .ident, d => (d.id, d.sessionId)
  | .state, d => d.state
  | .ok, d => d.packetsOk
  | .bad, d => d.packetsBad

/-- The fields in the order in which they are read. -/
def rowFields : List DevField := [.temp, .humid, .ident, .state, .ok, .bad]

theorem mem_rowFields (f : DevField) : f ∈ rowFields := by
  cases f <;> decide

/-- The values of a row. -/
abbrev TableRow := (f : DevField) → f.Ans

/-- A row of which nothing is read yet. -/
def blankRow : TableRow := fun f => f.of (DeviceTable.newDevice 0 0 0)

def TableRow.text (r : TableRow) : List Char :=
  dtDumpRow ⟨(r .ident).1, (r .ident).2, r .state, 0, 0, r .ok, r .bad, r .temp, r .humid⟩

/-- The row of a device of which nothing changes is its line. -/
theorem text_of (d : Device) : TableRow.text (fun f => f.of d) = dtDumpRow d :=
  rfl

/-- The first two lines. -/
def dumpHead (count : UInt32) : List Char :=
  "==== device table (".toList ++ unsigned count.toNat ++ " devices) ====\n".toList ++ dtDumpTitles

def dumpFoot : List Char := "===================================\n".toList

/-- The operations of `dt_dump`, and those of the other threads. -/
inductive DumpOp where
  | traffic (o : TrafficOp)
  | rdlock
  | loadCount
  | chain (b : Fin TABLE_BUCKETS)
  | load (p : Nat) (f : DevField)
  | fprintf (text : List Char)
  | unlock
  deriving DecidableEq

abbrev DumpOp.Ans : DumpOp → Type
  | .traffic o => o.Ans
  | .loadCount => UInt32
  | .chain _ => List Nat
  | .load _ f => f.Ans
  | _ => Unit

abbrev DumpSig : Sig := ⟨DumpOp, DumpOp.Ans⟩

abbrev DumpProc := Proc DumpSig

abbrev dumpOp (o : DumpOp) : DumpProc o.Ans := Proc.perform (I := DumpSig) o

def loadRow (p : Nat) : List DevField → TableRow → DumpProc TableRow
  | [], r => return r
  | f :: fs, r => do
      let v ← dumpOp (.load p f)
      loadRow p fs (Function.update r f v)

/-- The loop over the chain of a bucket. -/
def dumpChain : List Nat → DumpProc Unit
  | [] => return ()
  | p :: ps => do
      let r ← loadRow p rowFields blankRow
      dumpOp (.fprintf r.text)
      dumpChain ps

/-- The loop over the buckets. -/
def dumpBuckets : List (Fin TABLE_BUCKETS) → DumpProc Unit
  | [] => return ()
  | b :: bs => do
      let ps ← dumpOp (.chain b)
      dumpChain ps
      dumpBuckets bs

/-- `dt_dump`. -/
def dtDumpSteps : DumpProc Unit := do
  dumpOp .rdlock
  let count ← dumpOp .loadCount
  dumpOp (.fprintf (dumpHead count))
  dumpBuckets (List.finRange TABLE_BUCKETS)
  dumpOp (.fprintf dumpFoot)
  dumpOp .unlock

/-- A thread that dumps, or one that does anything else. -/
inductive DumpPc (σ : Type) where
  | dump (times : Nat)
  | other (s : σ)

section Threads

variable {σ ρ : Type}

def otherTurn : σ ⊕ ρ → DumpPc σ ⊕ Unit
  | .inl s => .inl (.other s)
  | .inr _ => .inr ()

/-- Threads that dump among others, whose program may be any. -/
def dumpThread (others : Loop TrafficSig σ ρ) : Loop DumpSig (DumpPc σ) Unit
  | .dump 0 => return .inr ()
  | .dump (times + 1) => do
      dtDumpSteps
      return .inl (.dump times)
  | .other s => do
      let r ← (others s).embed (J := DumpSig) DumpOp.traffic fun _ ans => ans
      return otherTurn r

/-- The shared state, with the number of threads that hold the read lock. -/
structure LockedTable where
  readers : Nat
  ctx : ServerCtx

def dumpHandler : Handler DumpSig (Conn × LockedTable)
  | .traffic o, (conn, w) =>
      let r := trafficHandler o (conn, w.ctx)
      (r.1, r.2.1, { w with ctx := r.2.2 })
  | .rdlock, (conn, w) => ((), conn, { w with readers := w.readers + 1 })
  | .loadCount, (conn, w) => (w.ctx.devices.deviceCount, conn, w)
  | .chain b, (conn, w) => (w.ctx.devices.buckets b, conn, w)
  | .load p f, (conn, w) => (((w.ctx.devices.heap[p]?).map f.of).getD (blankRow f), conn, w)
  | .fprintf _, w => ((), w)
  | .unlock, (conn, w) => ((), conn, { w with readers := w.readers - 1 })

abbrev DumpPool (ι σ : Type) := Pool DumpSig ι (DumpPc σ) Unit Conn LockedTable

/-- The operations that need the write lock. -/
def takesWriteLock : DumpOp → Bool
  | .traffic (.server (.insert _ _)) => true
  | _ => false

def waitsToWrite : Thread DumpSig (DumpPc σ) Unit → Bool
  | .busy (.op o _) => takesWriteLock o
  | _ => false

/-- A writer waits while anyone holds the read lock. -/
def rwGate {ι : Type} (pool : DumpPool ι σ) (i : ι) : Bool :=
  !waitsToWrite (pool.threads i) || pool.shared.readers == 0

/-- The threads after steps in the given order, a step of a writer that has to wait being none. -/
def dumpRun {ι : Type} [DecidableEq ι] (others : Loop TrafficSig σ ρ) (tasks : ι → DumpPc σ) (conns : ι → Conn)
    (ctx : ServerCtx) (schedule : List ι) : DumpPool ι σ :=
  Pool.gatedRun rwGate (dumpThread others) dumpHandler (.start (dumpThread others) tasks conns ⟨0, ctx⟩) schedule

end Threads

/-! ### Stages of a dump -/

/-- How far a thread is with its dump: the number it has loaded, the rows it has printed, by device, and the buckets
still to visit; in a row, also the fields to load, the values loaded and the rest of the chain. -/
inductive DumpStage where
  | out
  | locked
  | counted (count : UInt32)
  | between (count : UInt32) (rows : List (Nat × TableRow)) (bs : List (Fin TABLE_BUCKETS))
  | row (count : UInt32) (rows : List (Nat × TableRow)) (bs : List (Fin TABLE_BUCKETS)) (ps : List Nat) (p : Nat)
      (fs : List DevField) (r : TableRow)
  | ended (count : UInt32) (rows : List (Nat × TableRow))

namespace DumpStage

/-- At the rest of a chain. -/
def along (count : UInt32) (rows : List (Nat × TableRow)) (bs : List (Fin TABLE_BUCKETS)) : List Nat → DumpStage
  | [] => .between count rows bs
  | p :: ps => .row count rows bs ps p rowFields blankRow

/-- To `stage`, if the text printed is the one due. -/
def printed (text due : List Char) (stage : DumpStage) : Option DumpStage := if text = due then some stage else none

theorem printed_due (text : List Char) (stage : DumpStage) : printed text text stage = some stage :=
  if_pos rfl

theorem printed_eq_some {text due : List Char} {stage stage' : DumpStage} (h : printed text due stage = some stage') :
    text = due ∧ stage = stage' := by
  obtain ⟨htext, hstage⟩ := Option.ite_none_right_eq_some.mp h
  exact ⟨htext, Option.some.inj hstage⟩

def next : Monitor DumpSig DumpStage
  | .out, ⟨.traffic _, _⟩ => some .out
  | .out, ⟨.rdlock, _⟩ => some .locked
  | .locked, ⟨.loadCount, count⟩ => some (.counted count)
  | .counted count, ⟨.fprintf text, _⟩ =>
      printed text (dumpHead count) (.between count [] (List.finRange TABLE_BUCKETS))
  | .between count rows (b :: bs), ⟨.chain b', ps⟩ => if b' = b then some (along count rows bs ps) else none
  | .row count rows bs ps p (f :: fs) r, ⟨.load q f', v⟩ =>
      if q = p ∧ f' = f then some (.row count rows bs ps p fs (Function.update r f' v)) else none
  | .row count rows bs ps p [] r, ⟨.fprintf text, _⟩ =>
      printed text r.text (along count (rows ++ [(p, r)]) bs ps)
  | .between count rows [], ⟨.fprintf text, _⟩ => printed text dumpFoot (.ended count rows)
  | .ended _ _, ⟨.unlock, _⟩ => some .out
  | _, _ => none

/-- The moves from stage to stage. -/
inductive Moves : DumpStage → Event DumpSig → DumpStage → Prop where
  | other (o : TrafficOp) (ans : o.Ans) : Moves .out ⟨.traffic o, ans⟩ .out
  | lock : Moves .out ⟨.rdlock, ()⟩ .locked
  | count (n : UInt32) : Moves .locked ⟨.loadCount, n⟩ (.counted n)
  | head (n : UInt32) : Moves (.counted n) ⟨.fprintf (dumpHead n), ()⟩ (.between n [] (List.finRange TABLE_BUCKETS))
  | chain (n : UInt32) (rows : List (Nat × TableRow)) (b : Fin TABLE_BUCKETS) (bs : List (Fin TABLE_BUCKETS))
      (ps : List Nat) : Moves (.between n rows (b :: bs)) ⟨.chain b, ps⟩ (along n rows bs ps)
  | load (n : UInt32) (rows : List (Nat × TableRow)) (bs : List (Fin TABLE_BUCKETS)) (ps : List Nat) (p : Nat)
      (f : DevField) (fs : List DevField) (r : TableRow) (v : f.Ans) :
      Moves (.row n rows bs ps p (f :: fs) r) ⟨.load p f, v⟩ (.row n rows bs ps p fs (Function.update r f v))
  | row (n : UInt32) (rows : List (Nat × TableRow)) (bs : List (Fin TABLE_BUCKETS)) (ps : List Nat) (p : Nat)
      (r : TableRow) :
      Moves (.row n rows bs ps p [] r) ⟨.fprintf r.text, ()⟩ (along n (rows ++ [(p, r)]) bs ps)
  | foot (n : UInt32) (rows : List (Nat × TableRow)) :
      Moves (.between n rows []) ⟨.fprintf dumpFoot, ()⟩ (.ended n rows)
  | unlock (n : UInt32) (rows : List (Nat × TableRow)) : Moves (.ended n rows) ⟨.unlock, ()⟩ .out

theorem moves_of_next {stage stage' : DumpStage} {e : Event DumpSig} (hmove : stage.next e = some stage') :
    Moves stage e stage' := by
  obtain ⟨o, ans⟩ := e
  cases stage with
  | out =>
      cases o with
      | traffic o => cases hmove; exact .other o ans
      | rdlock => cases hmove; exact .lock
      | _ => cases hmove
  | locked =>
      cases o with
      | loadCount => cases hmove; exact .count ans
      | _ => cases hmove
  | counted n =>
      cases o with
      | fprintf text =>
          obtain ⟨rfl, rfl⟩ := printed_eq_some hmove
          exact .head n
      | _ => cases hmove
  | between n rows bs =>
      cases bs with
      | nil =>
          cases o with
          | fprintf text =>
              obtain ⟨rfl, rfl⟩ := printed_eq_some hmove
              exact .foot n rows
          | _ => cases hmove
      | cons b bs =>
          cases o with
          | chain b' =>
              obtain ⟨rfl, hnext⟩ := Option.ite_none_right_eq_some.mp hmove
              cases hnext
              exact .chain n rows b' bs ans
          | _ => cases hmove
  | row n rows bs ps p fs r =>
      cases fs with
      | nil =>
          cases o with
          | fprintf text =>
              obtain ⟨rfl, rfl⟩ := printed_eq_some hmove
              exact .row n rows bs ps p r
          | _ => cases hmove
      | cons f fs =>
          cases o with
          | load q f' =>
              obtain ⟨⟨rfl, rfl⟩, hnext⟩ := Option.ite_none_right_eq_some.mp hmove
              cases hnext
              exact .load n rows bs ps q f' fs r ans
          | _ => cases hmove
  | ended n rows =>
      cases o with
      | unlock => cases hmove; exact .unlock n rows
      | _ => cases hmove

end DumpStage

/-! ### The program keeps to the stages -/

theorem loadRow_follows (n : UInt32) (rows : List (Nat × TableRow)) (bs : List (Fin TABLE_BUCKETS)) (ps : List Nat)
    (p : Nat) (fs : List DevField) (r : TableRow) :
    (loadRow p fs r).Follows DumpStage.next (fun stage r' => stage = .row n rows bs ps p [] r')
      (.row n rows bs ps p fs r) := by
  induction fs generalizing r with
  | nil => exact rfl
  | cons f fs ih => exact fun v => ⟨_, if_pos ⟨rfl, rfl⟩, ih _⟩

theorem dumpChain_follows (n : UInt32) (bs : List (Fin TABLE_BUCKETS)) (ps : List Nat)
    (rows : List (Nat × TableRow)) :
    (dumpChain ps).Follows DumpStage.next (fun stage _ => ∃ rows', stage = .between n rows' bs)
      (.along n rows bs ps) := by
  induction ps generalizing rows with
  | nil => exact ⟨rows, rfl⟩
  | cons p ps ih =>
      refine (loadRow_follows n rows bs ps p rowFields blankRow).bind ?_
      rintro stage r rfl
      exact fun _ => ⟨_, DumpStage.printed_due r.text _, ih _⟩

theorem dumpBuckets_follows (n : UInt32) (bs : List (Fin TABLE_BUCKETS)) (rows : List (Nat × TableRow)) :
    (dumpBuckets bs).Follows DumpStage.next (fun stage _ => ∃ rows', stage = .between n rows' [])
      (.between n rows bs) := by
  induction bs generalizing rows with
  | nil => exact ⟨rows, rfl⟩
  | cons b bs ih =>
      intro ps
      refine ⟨_, if_pos rfl, (dumpChain_follows n bs ps rows).bind ?_⟩
      rintro stage _ ⟨rows', rfl⟩
      exact ih rows'

theorem dtDumpSteps_follows :
    dtDumpSteps.Follows DumpStage.next (fun stage _ => stage = .out) .out := by
  refine fun _ => ⟨.locked, rfl, fun n => ⟨.counted n, rfl, fun _ => ⟨_, DumpStage.printed_due _ _, ?_⟩⟩⟩
  refine (dumpBuckets_follows n (List.finRange TABLE_BUCKETS) []).bind ?_
  rintro stage _ ⟨rows, rfl⟩
  exact fun _ => ⟨.ended n rows, DumpStage.printed_due dumpFoot _, fun _ => ⟨.out, rfl, rfl⟩⟩

theorem other_keepsOut {α : Type} (p : TrafficProc α) :
    (p.embed (J := DumpSig) DumpOp.traffic fun _ ans => ans).Follows DumpStage.next (fun stage _ => stage = .out)
      .out := by
  induction p with
  | ret value => exact rfl
  | op o next ih => exact fun ans => ⟨.out, rfl, ih ans⟩

theorem dumpThread_follows {σ ρ : Type} (others : Loop TrafficSig σ ρ) (pc : DumpPc σ) (stage : DumpStage)
    (hstage : stage = .out) :
    (dumpThread others pc).Follows DumpStage.next
      (Monitor.Turned (fun (_ : DumpPc σ) stage => stage = .out) fun (_ : Unit) stage => stage = .out) stage := by
  subst hstage
  cases pc with
  | dump times =>
      cases times with
      | zero => exact rfl
      | succ times =>
          refine dtDumpSteps_follows.bind ?_
          rintro stage _ rfl
          exact rfl
  | other s =>
      refine (other_keepsOut (others s)).bind ?_
      rintro stage r rfl
      cases r with
      | inl s' => exact rfl
      | inr r => exact rfl

/-! ### The shape of the table stands still -/

namespace DumpStage

/-- The read lock is held. -/
def holding : DumpStage → Nat
  | .out => 0
  | _ => 1

/-- The rows and the devices still to come of a chain are all those of the buckets visited. -/
def Walked (t : DeviceTable) (rows : List (Nat × TableRow)) (ps : List Nat) (bs : List (Fin TABLE_BUCKETS)) : Prop :=
  ∃ done, done ++ bs = List.finRange TABLE_BUCKETS ∧ rows.map Prod.fst ++ ps = done.flatMap t.buckets

/-- What the thread has seen of the shape of the table is what the table is now. -/
def Sees (t : DeviceTable) : DumpStage → Prop
  | .counted n => n = t.deviceCount
  | .between n rows bs => n = t.deviceCount ∧ Walked t rows [] bs
  | .row n rows bs ps p _ _ => n = t.deviceCount ∧ Walked t rows (p :: ps) bs
  | .ended n rows => n = t.deviceCount ∧ rows.map Prod.fst = t.chained
  | _ => True

theorem sees_along {t : DeviceTable} {n : UInt32} {rows : List (Nat × TableRow)} {bs : List (Fin TABLE_BUCKETS)}
    {ps : List Nat} (hn : n = t.deviceCount) (hwalked : Walked t rows ps bs) : (along n rows bs ps).Sees t := by
  cases ps with
  | nil => exact ⟨hn, hwalked⟩
  | cons p ps => exact ⟨hn, hwalked⟩

theorem Sees.congr {t t' : DeviceTable} (hbuckets : t'.buckets = t.buckets) (hcount : t'.deviceCount = t.deviceCount)
    {stage : DumpStage} (hsees : stage.Sees t) : stage.Sees t' := by
  cases stage with
  | counted n => exact hsees.trans hcount.symm
  | between n rows bs =>
      obtain ⟨hn, done, hdone, hrows⟩ := hsees
      exact ⟨hn.trans hcount.symm, done, hdone, by rw [hbuckets]; exact hrows⟩
  | row n rows bs ps p fs r =>
      obtain ⟨hn, done, hdone, hrows⟩ := hsees
      exact ⟨hn.trans hcount.symm, done, hdone, by rw [hbuckets]; exact hrows⟩
  | ended n rows =>
      refine ⟨hsees.1.trans hcount.symm, ?_⟩
      rw [DeviceTable.chained, hbuckets]
      exact hsees.2
  | _ => trivial

theorem sees_of_holding {stage : DumpStage} (hout : stage.holding = 0) (t : DeviceTable) : stage.Sees t := by
  cases stage with
  | out => trivial
  | _ => cases hout

/-- A thread in a row is at a device of the table. -/
theorem Sees.device {t : DeviceTable} (hwf : t.WellFormed) {n : UInt32} {rows : List (Nat × TableRow)}
    {bs : List (Fin TABLE_BUCKETS)} {ps : List Nat} {p : Nat} {fs : List DevField} {r : TableRow}
    (hsees : (row n rows bs ps p fs r).Sees t) : ∃ d, t.heap[p]? = some d := by
  obtain ⟨-, done, -, hrows⟩ := hsees
  have hp : p ∈ done.flatMap t.buckets := by
    rw [← hrows]
    simp
  obtain ⟨b, -, hb⟩ := List.mem_flatMap.mp hp
  obtain ⟨d, hd, -⟩ := hwf.bucket b p hb
  exact ⟨d, hd⟩

end DumpStage

/-- Without the write lock the chains stay as they are. -/
theorem traffic_shape (ctx : ServerCtx) {o : TrafficOp} (conn : Conn) (hread : takesWriteLock (.traffic o) = false) :
    (trafficHandler o (conn, ctx)).2.2.devices.buckets = ctx.devices.buckets ∧
      (trafficHandler o (conn, ctx)).2.2.devices.deviceCount = ctx.devices.deviceCount := by
  cases o with
  | server o =>
      show (ctx.after o conn).devices.buckets = _ ∧ (ctx.after o conn).devices.deviceCount = _
      rcases devices_step o conn ctx with (⟨hsame, -⟩ | ⟨p, a, -, hatomic⟩) | ⟨id, sid, now, -, hop, -⟩
      · rw [hsame]
        exact ⟨rfl, rfl⟩
      · rw [hatomic]
        exact ⟨rfl, rfl⟩
      · obtain rfl : o = .insert id sid := congrArg Event.op hop
        cases hread
  | _ => exact ⟨rfl, rfl⟩

section Run

variable {ι σ ρ : Type} [Fintype ι] [DecidableEq ι]

/-- What holds at every moment: the lock counts its holders, and each of them sees the table as it is. -/
structure DumpBooks (st : ι → DumpStage) (w : LockedTable) : Prop where
  readers : w.readers = ∑ i, (st i).holding
  wf : w.ctx.devices.WellFormed
  sees : ∀ i, (st i).Sees w.ctx.devices

/-- A step after which the table has the same shape. -/
theorem DumpBooks.step {st : ι → DumpStage} {w w' : LockedTable} (hbooks : DumpBooks st w) {i : ι} {stage : DumpStage}
    (hreaders : w'.readers + (st i).holding = w.readers + stage.holding) (hwf : w'.ctx.devices.WellFormed)
    (hbuckets : w'.ctx.devices.buckets = w.ctx.devices.buckets)
    (hcount : w'.ctx.devices.deviceCount = w.ctx.devices.deviceCount) (hstage : stage.Sees w'.ctx.devices) :
    DumpBooks (Function.update st i stage) w' where
  readers := by
    have hsum := sum_update_add (Finset.mem_univ i) DumpStage.holding st stage
    have hold := hbooks.readers
    omega
  wf := hwf
  sees := by
    intro j
    by_cases hj : j = i
    · subst hj
      rwa [Function.update_self]
    · rw [Function.update_of_ne hj]
      exact (hbooks.sees j).congr hbuckets hcount

/-- A step of the dump itself, which changes nothing. -/
theorem DumpBooks.look {st : ι → DumpStage} {w : LockedTable} (hbooks : DumpBooks st w) {i : ι} {stage : DumpStage}
    (hholding : stage.holding = (st i).holding) (hstage : stage.Sees w.ctx.devices) :
    DumpBooks (Function.update st i stage) w :=
  hbooks.step (by rw [hholding]) hbooks.wf rfl rfl hstage

theorem DumpStage.holding_along (n : UInt32) (rows : List (Nat × TableRow)) (bs : List (Fin TABLE_BUCKETS))
    (ps : List Nat) : (along n rows bs ps).holding = 1 := by
  cases ps <;> rfl

/-- An operation that its thread may perform. -/
theorem DumpBooks.op {st : ι → DumpStage} {w : LockedTable} (hbooks : DumpBooks st w) {i : ι} {o : DumpOp} {conn : Conn}
    {stage : DumpStage} (hmove : DumpStage.next (st i) ⟨o, (dumpHandler o (conn, w)).1⟩ = some stage)
    (hgate : takesWriteLock o = true → w.readers = 0) :
    DumpBooks (Function.update st i stage) (dumpHandler o (conn, w)).2.2 := by
  have hsees := hbooks.sees i
  have hmoves := DumpStage.moves_of_next hmove
  generalize hst : st i = stage₀ at hmoves hsees
  generalize he : (⟨o, (dumpHandler o (conn, w)).1⟩ : Event DumpSig) = e at hmoves
  cases hmoves with
  | other o' ans =>
      obtain rfl : o = .traffic o' := congrArg Event.op he
      have hstay : Function.update st i DumpStage.out = st := by rw [← hst, Function.update_eq_self]
      cases hwrites : takesWriteLock (.traffic o') with
      | false =>
          obtain ⟨hbuckets, hcount⟩ := traffic_shape w.ctx conn hwrites
          exact hbooks.step (by rw [hst]; rfl) (wellFormed_traffic hbooks.wf o' conn) hbuckets hcount trivial
      | true =>
          -- nobody holds the lock
          have hnone : ∀ j, (st j).holding = 0 := by
            have hsum : ∑ j, (st j).holding = 0 := hbooks.readers.symm.trans (hgate hwrites)
            exact fun j => Finset.sum_eq_zero_iff.mp hsum j (Finset.mem_univ j)
          rw [hstay]
          exact ⟨hbooks.readers, wellFormed_traffic hbooks.wf o' conn,
            fun j => DumpStage.sees_of_holding (hnone j) _⟩
  | lock =>
      obtain rfl : o = .rdlock := congrArg Event.op he
      exact hbooks.step (by rw [hst]; rfl) hbooks.wf rfl rfl trivial
  | count n =>
      obtain rfl : o = .loadCount := congrArg Event.op he
      cases he
      exact hbooks.look (by rw [hst]; rfl) rfl
  | head n =>
      obtain rfl : o = .fprintf (dumpHead n) := congrArg Event.op he
      exact hbooks.look (by rw [hst]; rfl) ⟨hsees, [], rfl, rfl⟩
  | chain n rows b bs ps =>
      obtain rfl : o = .chain b := congrArg Event.op he
      cases he
      obtain ⟨hn, done, hdone, hrows⟩ := hsees
      refine hbooks.look (by rw [hst, DumpStage.holding_along]; rfl) (DumpStage.sees_along hn ⟨done ++ [b], ?_, ?_⟩)
      · rw [List.append_assoc]
        exact hdone
      · rw [List.append_nil] at hrows
        rw [hrows, List.flatMap_append, List.flatMap_singleton]
        rfl
  | load n rows bs ps p f fs r v =>
      obtain rfl : o = .load p f := congrArg Event.op he
      exact hbooks.look (by rw [hst]; rfl) hsees
  | row n rows bs ps p r =>
      obtain rfl : o = .fprintf r.text := congrArg Event.op he
      obtain ⟨hn, done, hdone, hrows⟩ := hsees
      refine hbooks.look (by rw [hst, DumpStage.holding_along]; rfl) (DumpStage.sees_along hn ⟨done, hdone, ?_⟩)
      rw [List.map_append, List.append_assoc]
      exact hrows
  | foot n rows =>
      obtain rfl : o = .fprintf dumpFoot := congrArg Event.op he
      obtain ⟨hn, done, hdone, hrows⟩ := hsees
      refine hbooks.look (by rw [hst]; rfl) ⟨hn, ?_⟩
      rw [List.append_nil] at hdone hrows
      rw [hrows, hdone, DeviceTable.chained]
  | unlock n rows =>
      obtain rfl : o = .unlock := congrArg Event.op he
      refine hbooks.step ?_ hbooks.wf rfl rfl trivial
      have hreaders := hbooks.readers
      have hmem : (st i).holding ≤ ∑ j, (st j).holding :=
        Finset.single_le_sum (f := fun j => (st j).holding) (fun _ _ => Nat.zero_le _) (Finset.mem_univ i)
      rw [hst] at hmem ⊢
      show w.readers - 1 + 1 = w.readers + 0
      have hone : 1 ≤ ∑ j, (st j).holding := hmem
      omega

theorem dump_books (others : Loop TrafficSig σ ρ) (tasks : ι → DumpPc σ) (conns : ι → Conn) {ctx : ServerCtx}
    (hwf : ctx.devices.WellFormed) (schedule : List ι) :
    ∃ st, Pool.Monitored DumpStage.next (fun (_ : DumpPc σ) stage => stage = .out)
      (fun (_ : Unit) stage => stage = .out) (fun _ => .out) (fun st _ w => DumpBooks st w)
      (dumpRun others tasks conns ctx schedule) st := by
  refine Pool.monitored (dumpThread_follows others) (fun _ => rfl) ?_ ?_ schedule
  · exact ⟨by simp [DumpStage.holding], hwf, fun _ => trivial⟩
  · intro pool st i o next stage hpool hgate hthread hmove
    refine hpool.holds.op hmove ?_
    intro hwrites
    rw [rwGate, hthread] at hgate
    simpa [waitsToWrite, hwrites] using hgate

end Run

/-! ### What a dump prints -/

def textPrinted (e : Event DumpSig) : List Char :=
  match e.op with
  | .fprintf text => text
  | _ => []

/-- What these events print. -/
def dumpText (t : List (Event DumpSig)) : List Char := t.flatMap textPrinted

theorem dumpText_append (t t' : List (Event DumpSig)) : dumpText (t ++ t') = dumpText t ++ dumpText t' :=
  List.flatMap_append

theorem dumpText_cons (e : Event DumpSig) (t : List (Event DumpSig)) :
    dumpText (e :: t) = textPrinted e ++ dumpText t :=
  List.flatMap_cons

theorem dumpText_concat (t : List (Event DumpSig)) (e : Event DumpSig) :
    dumpText (t ++ [e]) = dumpText t ++ textPrinted e := by
  rw [dumpText_append, dumpText_cons]
  exact congrArg _ (List.append_nil _)

def rowsText (rows : List (Nat × TableRow)) : List Char := rows.flatMap fun row => row.2.text

/-- The values of the rows were loaded in `t`. -/
def RowsLoaded (t : List (Event DumpSig)) (rows : List (Nat × TableRow)) : Prop :=
  ∀ row ∈ rows, ∀ f, (⟨.load row.1 f, row.2 f⟩ : Event DumpSig) ∈ t

namespace DumpStage

/-- What is printed by now. -/
def text : DumpStage → List Char
  | .between n rows _ => dumpHead n ++ rowsText rows
  | .row n rows _ _ _ _ _ => dumpHead n ++ rowsText rows
  | .ended n rows => dumpHead n ++ rowsText rows ++ dumpFoot
  | _ => []

/-- What is known by now was loaded in `t`. -/
def Loaded (t : List (Event DumpSig)) : DumpStage → Prop
  | .between _ rows _ => RowsLoaded t rows
  | .row _ rows _ _ p fs r => RowsLoaded t rows ∧ ∀ f, f ∈ fs ∨ (⟨.load p f, r f⟩ : Event DumpSig) ∈ t
  | .ended _ rows => RowsLoaded t rows
  | _ => True

theorem text_along (n : UInt32) (rows : List (Nat × TableRow)) (bs : List (Fin TABLE_BUCKETS)) (ps : List Nat) :
    (along n rows bs ps).text = dumpHead n ++ rowsText rows := by
  cases ps <;> rfl

theorem loaded_along {t : List (Event DumpSig)} {n : UInt32} {rows : List (Nat × TableRow)}
    {bs : List (Fin TABLE_BUCKETS)} (ps : List Nat) (hrows : RowsLoaded t rows) : (along n rows bs ps).Loaded t := by
  cases ps with
  | nil => exact hrows
  | cons p ps => exact ⟨hrows, fun f => Or.inl (mem_rowFields f)⟩

end DumpStage

theorem RowsLoaded.mono {t : List (Event DumpSig)} {rows : List (Nat × TableRow)} (hrows : RowsLoaded t rows)
    (e : Event DumpSig) : RowsLoaded (t ++ [e]) rows :=
  fun row hrow f => List.mem_append_left _ (hrows row hrow f)

/-- Since the lock was taken. -/
structure SinceLock (stage : DumpStage) (t : List (Event DumpSig)) : Prop where
  inside : stage.holding = 1
  printed : dumpText t = stage.text
  loaded : stage.Loaded t

theorem SinceLock.step {stage stage' : DumpStage} {t : List (Event DumpSig)} {e : Event DumpSig}
    (hsince : SinceLock stage t) (hmove : stage.next e = some stage') (hlocked : e.op ≠ .unlock) :
    SinceLock stage' (t ++ [e]) := by
  obtain ⟨hinside, hprinted, hloaded⟩ := hsince
  have hquiet : textPrinted e = [] → dumpText (t ++ [e]) = stage.text := by
    intro hnothing
    rw [dumpText_concat, hprinted, hnothing, List.append_nil]
  cases DumpStage.moves_of_next hmove with
  | other o ans => cases hinside
  | lock => cases hinside
  | count n => exact ⟨rfl, hquiet rfl, trivial⟩
  | head n =>
      refine ⟨rfl, ?_, fun row hrow => by cases hrow⟩
      rw [dumpText_concat, hprinted]
      exact (List.append_nil _).symm
  | chain n rows b bs ps =>
      refine ⟨DumpStage.holding_along n rows bs ps, ?_, DumpStage.loaded_along ps (RowsLoaded.mono hloaded _)⟩
      rw [DumpStage.text_along]
      exact hquiet rfl
  | load n rows bs ps p f fs r v =>
      refine ⟨rfl, hquiet rfl, hloaded.1.mono _, ?_⟩
      intro g
      by_cases hg : g = f
      · subst hg
        rw [Function.update_self]
        exact Or.inr (List.mem_append_right _ (List.mem_singleton_self _))
      · rw [Function.update_of_ne hg]
        rcases hloaded.2 g with hleft | hdone
        · exact Or.inl ((List.mem_cons.mp hleft).resolve_left hg)
        · exact Or.inr (List.mem_append_left _ hdone)
  | row n rows bs ps p r =>
      refine ⟨DumpStage.holding_along _ _ bs ps, ?_, DumpStage.loaded_along ps ?_⟩
      · rw [dumpText_concat, hprinted, DumpStage.text_along, rowsText, List.flatMap_append, List.flatMap_singleton,
          ← List.append_assoc]
        rfl
      · intro row hrow
        rcases List.mem_append.mp hrow with hrow | hrow
        · exact hloaded.1.mono _ row hrow
        · rw [List.mem_singleton.mp hrow]
          intro f
          exact List.mem_append_left _ ((hloaded.2 f).resolve_left List.not_mem_nil)
  | foot n rows =>
      refine ⟨rfl, ?_, RowsLoaded.mono hloaded _⟩
      rw [dumpText_concat, hprinted]
      rfl
  | unlock n rows => exact absurd rfl hlocked

theorem sinceLock_accepts {stage : DumpStage} {t : List (Event DumpSig)}
    (haccepts : DumpStage.next.Accepts .locked t stage) (hlocked : ∀ e ∈ t, e.op ≠ .unlock) :
    SinceLock stage t := by
  refine haccepts.keeps
    (P := fun stage (t : List (Event DumpSig)) => (∀ e ∈ t, e.op ≠ .unlock) → SinceLock stage t) ?_ ?_ hlocked
  · intro stage t e stage' hsince hmove hlocked
    refine (hsince fun e' he' => hlocked e' (List.mem_append_left _ he')).step hmove ?_
    exact hlocked e (List.mem_append_right _ (List.mem_singleton_self e))
  · exact fun _ => ⟨rfl, rfl, trivial⟩

/-! ### Undisturbed -/

section Alone

variable {w : LockedTable} (conn : Conn)

theorem loadRow_alone {p : Nat} {d : Device} (hd : w.ctx.devices.heap[p]? = some d) (fs : List DevField)
    (r : TableRow) :
    ∃ t r', Proc.Runs dumpHandler (loadRow p fs r) (conn, w) r' (conn, w) t ∧ dumpText t = [] ∧
      ∀ f, r' f = if f ∈ fs then f.of d else r f := by
  induction fs generalizing r with
  | nil => exact ⟨[], r, .ret _ _, rfl, fun f => (if_neg List.not_mem_nil).symm⟩
  | cons f fs ih =>
      obtain ⟨t, r', hruns, htext, hr'⟩ := ih (Function.update r f (f.of d))
      have hload : dumpHandler (.load p f) (conn, w) = (f.of d, conn, w) := by
        show (((w.ctx.devices.heap[p]?).map f.of).getD (blankRow f), conn, w) = _
        rw [hd]
        rfl
      refine ⟨_, r', .perform hload hruns, htext, fun g => ?_⟩
      rw [hr' g]
      by_cases hg : g = f
      · subst hg
        rw [Function.update_self, ite_self, if_pos List.mem_cons_self]
      · rw [Function.update_of_ne hg]
        simp [hg]

theorem dumpChain_alone {ps : List Nat} (hps : ∀ p ∈ ps, ∃ d, w.ctx.devices.heap[p]? = some d) :
    ∃ t, Proc.Runs dumpHandler (dumpChain ps) (conn, w) () (conn, w) t ∧
      dumpText t = ps.flatMap fun p => ((w.ctx.devices.heap[p]?).map dtDumpRow).getD [] := by
  induction ps with
  | nil => exact ⟨[], .ret _ _, rfl⟩
  | cons p ps ih =>
      obtain ⟨d, hd⟩ := hps p List.mem_cons_self
      obtain ⟨t, hruns, htext⟩ := ih fun q hq => hps q (List.mem_cons_of_mem p hq)
      obtain ⟨t', r, hrow, hnothing, hr⟩ := loadRow_alone conn hd rowFields blankRow
      have hwhole : r = fun f => f.of d := by
        funext f
        rw [hr f, if_pos (mem_rowFields f)]
      refine ⟨_, hrow.bind (.perform rfl hruns), ?_⟩
      rw [dumpText_append, dumpText_cons, hnothing, htext, List.flatMap_cons, hd, hwhole, List.nil_append]
      exact congrArg (· ++ _) (text_of d)

theorem dumpBuckets_alone (hwf : w.ctx.devices.WellFormed) (bs : List (Fin TABLE_BUCKETS)) :
    ∃ t, Proc.Runs dumpHandler (dumpBuckets bs) (conn, w) () (conn, w) t ∧
      dumpText t = bs.flatMap fun b =>
        (w.ctx.devices.buckets b).flatMap fun p => ((w.ctx.devices.heap[p]?).map dtDumpRow).getD [] := by
  induction bs with
  | nil => exact ⟨[], .ret _ _, rfl⟩
  | cons b bs ih =>
      obtain ⟨t, hruns, htext⟩ := ih
      have hps : ∀ p ∈ w.ctx.devices.buckets b, ∃ d, w.ctx.devices.heap[p]? = some d := by
        intro p hp
        obtain ⟨d, hd, -⟩ := hwf.bucket b p hp
        exact ⟨d, hd⟩
      obtain ⟨t', hchain, hrows⟩ := dumpChain_alone conn hps
      refine ⟨_, .perform rfl (hchain.bind hruns), ?_⟩
      rw [List.flatMap_cons, ← hrows, ← htext]
      exact List.flatMap_append

/-- The dump of a table that nobody changes meanwhile. -/
theorem dtDumpSteps_alone (hwf : w.ctx.devices.WellFormed) :
    ∃ t, Proc.Runs dumpHandler dtDumpSteps (conn, w) () (conn, w) t ∧ dumpText t = dtDump w.ctx.devices := by
  obtain ⟨t, hruns, htext⟩ := dumpBuckets_alone (w := { w with readers := w.readers + 1 }) conn hwf
    (List.finRange TABLE_BUCKETS)
  refine ⟨_, .perform rfl (.perform rfl (.perform rfl (hruns.bind (.perform rfl (.perform rfl (.ret _ _)))))), ?_⟩
  have hdump : dtDump w.ctx.devices = dumpHead w.ctx.devices.deviceCount ++ dumpText t ++ dumpFoot := by
    rw [htext]
    rfl
  rw [dumpText_cons, dumpText_cons, dumpText_cons, dumpText_append, hdump, List.append_assoc]
  rfl

end Alone

section Consistent

variable {ι σ ρ : Type} [Fintype ι] [DecidableEq ι]

/-- An operation in the log, and the moment before it: the thread was at the stage at which the operation is due, and
the answer is that of the state of that moment. -/
theorem dump_moment {others : Loop TrafficSig σ ρ} {tasks : ι → DumpPc σ} {conns : ι → Conn} {ctx : ServerCtx}
    (hwf : ctx.devices.WellFormed) {schedule : List ι} {i : ι} {o : DumpOp} {ans : o.Ans}
    {earlier later : List (ι × Event DumpSig)}
    (hlog : (dumpRun others tasks conns ctx schedule).log = earlier ++ (i, ⟨o, ans⟩) :: later) :
    ∃ moment stage stage', (dumpRun others tasks conns ctx moment).log = earlier ∧
      (dumpRun others tasks conns ctx moment).shared.ctx.devices.WellFormed ∧
      DumpStage.next.Accepts .out (Pool.eventsOf earlier i) stage ∧
      stage.Sees (dumpRun others tasks conns ctx moment).shared.ctx.devices ∧
      DumpStage.Moves stage ⟨o, ans⟩ stage' ∧
      ∃ conn, ans = (dumpHandler o (conn, (dumpRun others tasks conns ctx moment).shared)).1 := by
  obtain ⟨moment, j, o', next, hearlier, -, hthread, hentry⟩ := Pool.gatedRun_split _ _ _ rfl hlog
  cases hentry
  obtain ⟨st, hpool⟩ := dump_books others tasks conns hwf moment
  obtain ⟨stage', hmove, -⟩ := hpool.op (h := dumpHandler) hthread
  have haccepts := hpool.accepts i
  rw [show (dumpRun others tasks conns ctx moment).log = earlier from hearlier] at haccepts
  exact ⟨moment, st i, stage', hearlier, hpool.holds.wf, haccepts, hpool.holds.sees i,
    DumpStage.moves_of_next hmove, _, rfl⟩

/-- **A dump of the table under way among other threads.** Thread `i` takes the read lock and releases it later; the
other threads may run any programs over the operations of the server meanwhile. What the dump prints is a table with
one row for each device that is chained when the lock is released, no device twice, under a first line with the number
of the rows; and each value in a row is the one the device had at some moment while the lock was held. -/
theorem dump_consistent (others : Loop TrafficSig σ ρ) (tasks : ι → DumpPc σ) (conns : ι → Conn) (ctx : ServerCtx)
    (hwf : ctx.devices.WellFormed) (schedule : List ι) (i : ι) (before during after : List (ι × Event DumpSig))
    (hlog : (dumpRun others tasks conns ctx schedule).log =
      before ++ (i, ⟨.rdlock, ()⟩) :: (during ++ (i, ⟨.unlock, ()⟩) :: after))
    (hlocked : ∀ e ∈ Pool.eventsOf during i, e.op ≠ .unlock) :
    ∃ rows : List (Nat × TableRow),
      dumpText (Pool.eventsOf during i) = dumpHead (.ofNat rows.length) ++ rowsText rows ++ dumpFoot ∧
      (rows.map Prod.fst).Nodup ∧
      (∃ moment, (dumpRun others tasks conns ctx moment).log = before ++ (i, ⟨.rdlock, ()⟩) :: during ∧
        rows.map Prod.fst = (dumpRun others tasks conns ctx moment).shared.ctx.devices.chained) ∧
      ∀ row ∈ rows, ∀ f : DevField, ∃ moment part d, part <+: during ∧
        (dumpRun others tasks conns ctx moment).log = before ++ (i, ⟨.rdlock, ()⟩) :: part ∧
        (dumpRun others tasks conns ctx moment).shared.ctx.devices.heap[row.1]? = some d ∧ row.2 f = f.of d := by
  have hend : (dumpRun others tasks conns ctx schedule).log =
      (before ++ (i, ⟨.rdlock, ()⟩) :: during) ++ (i, ⟨.unlock, ()⟩) :: after := by
    rw [hlog, List.append_assoc, List.cons_append]
  obtain ⟨moment, stage, stage', hmoment, hwell, haccepts, hsees, hmove, -⟩ := dump_moment hwf hend
  cases hmove with
  | unlock n rows =>
      obtain ⟨hn, hrows⟩ := hsees
      -- the events of the thread since it took the lock
      have hevents : Pool.eventsOf (before ++ (i, (⟨.rdlock, ()⟩ : Event DumpSig)) :: during) i =
          Pool.eventsOf before i ++ ⟨.rdlock, ()⟩ :: Pool.eventsOf during i := by
        simp [Pool.eventsOf]
      rw [hevents] at haccepts
      obtain ⟨mid, -, hsecond⟩ := haccepts.split
      have hsince : SinceLock (.ended n rows) (Pool.eventsOf during i) := by
        cases hsecond with
        | cons hlock hrest =>
            cases DumpStage.moves_of_next hlock with
            | lock => exact sinceLock_accepts hrest hlocked
      have hlength : n = .ofNat rows.length := by
        have hcount := hwell.count
        rw [← hrows, List.length_map] at hcount
        rw [hn, ← UInt32.toNat_inj, hcount]
        exact (UInt32.toNat_ofNat' ..).symm
      refine ⟨rows, ?_, ?_, ⟨moment, hmoment, hrows⟩, ?_⟩
      · rw [← hlength]
        exact hsince.printed
      · rw [hrows]
        exact hwell.unique.of_map
      · intro row hrow f
        have hload : (i, (⟨.load row.1 f, row.2 f⟩ : Event DumpSig)) ∈ during :=
          Pool.mem_eventsOf.mp (hsince.loaded row hrow f)
        obtain ⟨part, rest, hduring⟩ := List.append_of_mem hload
        have hsplit : (dumpRun others tasks conns ctx schedule).log =
            (before ++ (i, ⟨.rdlock, ()⟩) :: part) ++ (i, ⟨.load row.1 f, row.2 f⟩) ::
              (rest ++ (i, ⟨.unlock, ()⟩) :: after) := by
          rw [hlog, hduring]
          simp
        obtain ⟨moment', stage', stage'', hmoment', hwell', -, hsees', hmove', conn, hans⟩ := dump_moment hwf hsplit
        have hdevice : ∃ d, (dumpRun others tasks conns ctx moment').shared.ctx.devices.heap[row.1]? = some d := by
          cases hmove' with
          | load => exact hsees'.device hwell'
        obtain ⟨d, hd⟩ := hdevice
        refine ⟨moment', part, d, ?_, hmoment', hd, ?_⟩
        · rw [hduring]
          exact List.prefix_append _ _
        · rw [hans]
          show ((_[row.1]?).map f.of).getD (blankRow f) = f.of d
          rw [hd]
          rfl

end Consistent

/-- One thread dumps a table with one device, the other records a reading of it. -/
def dumpAndRecord : Bool → DumpPc (List TrafficCall)
  | true => .dump 1
  | false => .other [.recordSensor 0 ⟨1, 2150, 4000, 9⟩]

/-- The reading is stored after the first 28 steps of the dump, when it has loaded the temperature of the device and not
yet the humidity. -/
def amidDump : List Bool := List.replicate 28 true ++ List.replicate 8 false ++ List.replicate 52 true

def amidLog : List (Bool × Event DumpSig) :=
  (dumpRun trafficThread dumpAndRecord (fun _ => scripted []) oneDevice amidDump).log

/-- A log that begins with the lock and ends with its release. -/
theorem log_eq_of_ends {ι : Type} {log : List (ι × Event DumpSig)} {i : ι}
    (hfirst : (log.head?).map (fun entry => (entry.1, entry.2.op)) = some (i, .rdlock))
    (hlast : (log.tail.getLast?).map (fun entry => (entry.1, entry.2.op)) = some (i, .unlock)) :
    log = (i, ⟨.rdlock, ()⟩) :: (log.tail.dropLast ++ [(i, ⟨.unlock, ()⟩)]) := by
  obtain ⟨⟨j, o, ans⟩, hhead, hrdlock⟩ := Option.map_eq_some_iff.mp hfirst
  obtain ⟨⟨k, o', ans'⟩, hend, hunlock⟩ := Option.map_eq_some_iff.mp hlast
  cases hrdlock
  cases hunlock
  rw [List.dropLast_append_getLast? _ hend]
  exact (List.cons_head?_tail hhead).symm

def loadOf (f : DevField) : Event DumpSig → Option f.Ans
  | ⟨.load _ g, v⟩ => if h : g = f then some (h ▸ v) else none
  | _ => none

/-- The row mixes two readings. -/
theorem dump_consistent_amid :
    let run := dumpRun trafficThread dumpAndRecord (fun _ => scripted []) oneDevice
    let during := amidLog.tail.dropLast
    (Pool.eventsOf during true).filterMap (loadOf .temp) = [0] ∧
    (Pool.eventsOf during true).filterMap (loadOf .humid) = [4000] ∧
    ∃ rows : List (Nat × TableRow),
      dumpText (Pool.eventsOf during true) = dumpHead (.ofNat rows.length) ++ rowsText rows ++ dumpFoot ∧
      (rows.map Prod.fst).Nodup ∧
      (∃ moment, (run moment).log = (true, ⟨.rdlock, ()⟩) :: during ∧
        rows.map Prod.fst = (run moment).shared.ctx.devices.chained) ∧
      ∀ row ∈ rows, ∀ f : DevField, ∃ moment part d, part <+: during ∧
        (run moment).log = (true, ⟨.rdlock, ()⟩) :: part ∧
        (run moment).shared.ctx.devices.heap[row.1]? = some d ∧ row.2 f = f.of d := by
  intro run during
  have hlog : amidLog = (true, ⟨.rdlock, ()⟩) :: (during ++ [(true, ⟨.unlock, ()⟩)]) :=
    log_eq_of_ends (by decide +kernel) (by decide +kernel)
  exact ⟨by decide +kernel, by decide +kernel, dump_consistent trafficThread dumpAndRecord (fun _ => scripted [])
    oneDevice oneDevice_wellFormed amidDump true [] during [] hlog (by decide +kernel)⟩

end PulseLink
