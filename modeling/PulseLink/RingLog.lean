import PulseLink.BaseQueue
import PulseLink.Server

/-! The record sink of `server/ring_log.c`: 1024 slots written round and round by any number of worker threads.
A write takes the lock for its slot, and counts itself behind it: `g_written` first, and then, from what
`g_written` was, perhaps `g_overwritten`. The threads may count in another order than they wrote. -/

namespace PulseLink

def RING_SLOTS : UInt64 := 1024

/-- The statics of `ring_log.c`. -/
structure RingLog where
  ring : List SensorRecord
  head : UInt64
  written : UInt64
  overwritten : UInt64
  size : ring.length = 1024

/-- What `memset` leaves in a slot. -/
def zeroRecord : SensorRecord := ⟨0, 0, 0, 0, 0⟩

/-- `rl_open`. -/
def rlOpen (_ : RingLog) : RingLog where
  ring := List.replicate 1024 zeroRecord
  head := 0
  written := 0
  overwritten := 0
  size := List.length_replicate

/-- The section of `rl_write` under the lock. -/
def RingLog.append (r : RingLog) (rec : SensorRecord) : RingLog :=
  { r with
    ring := r.ring.set (r.head % RING_SLOTS).toNat rec
    head := r.head + 1
    size := List.length_set.trans r.size }

/-- The atomic operations of `rl_write`. -/
inductive RlOp where
  | append (rec : SensorRecord)
  | addWritten
  | addOverwritten
  deriving DecidableEq, Repr

/-- `atomic_fetch_add` answers what the counter was. -/
abbrev RlOp.Ans : RlOp → Type
  | .append _ => Unit
  | .addWritten => UInt64
  | .addOverwritten => UInt64

abbrev RlSig : Sig := ⟨RlOp, RlOp.Ans⟩

/-- `rl_write`. -/
def rlWrite (rec : SensorRecord) : Proc RlSig Unit := do
  Proc.perform (I := RlSig) (.append rec)
  let w ← Proc.perform (I := RlSig) .addWritten
  if w + 1 > RING_SLOTS then
    let _ ← Proc.perform (I := RlSig) .addOverwritten
    return ()
  else return ()

/-- A thread that writes its records one after the other. -/
def rlWriter : Loop RlSig (List SensorRecord) Unit
  | [] => return .inr ()
  | rec :: recs => do
      rlWrite rec
      return .inl recs

def rlHandler : Handler RlSig (Unit × RingLog)
  | .append rec, (u, r) => ((), u, r.append rec)
  | .addWritten, (u, r) => (r.written, u, { r with written := r.written + 1 })
  | .addOverwritten, (u, r) => (r.overwritten, u, { r with overwritten := r.overwritten + 1 })

abbrev RlThreads (ι : Type) := Pool RlSig ι (List SensorRecord) Unit Unit RingLog

/-- Threads writing their records after `rl_open`, with steps in the given order. -/
def rlRun {ι : Type} [DecidableEq ι] (records : ι → List SensorRecord) (before : RingLog) (schedule : List ι) :
    RlThreads ι :=
  Pool.run rlWriter rlHandler (.start rlWriter records (fun _ => ()) (rlOpen before)) schedule

/-- The slots that `rl_dump` takes for filled. -/
def RingLog.fill (r : RingLog) : UInt64 := if r.head < RING_SLOTS then r.head else RING_SLOTS

/-- The records in the ring, oldest first. -/
def RingLog.held (r : RingLog) : List SensorRecord :=
  (List.range r.fill.toNat).map fun i =>
    r.ring.getD ((r.head - r.fill + UInt64.ofNat i) % RING_SLOTS).toNat zeroRecord

/-- What `rl_dump` prints: the numbers of its first line, and the records behind. -/
structure RlDump where
  written : UInt64
  overwritten : UInt64
  fill : UInt64
  lines : List SensorRecord
  deriving DecidableEq, Repr

/-- `rl_dump`. -/
def rlDump (r : RingLog) : RlDump where
  written := r.written
  overwritten := r.overwritten
  fill := r.fill
  lines :=
    let shown := if r.fill < 5 then r.fill else 5
    (List.range shown.toNat).map fun i =>
      r.ring.getD ((r.head - 1 - UInt64.ofNat i) % RING_SLOTS).toNat zeroRecord

/-! ### The log -/

/-- The record a section wrote. -/
def appendOf : Event RlSig → Option SensorRecord
  | ⟨.append rec, _⟩ => some rec
  | _ => none

/-- What `g_written` was when an event counted itself. -/
def countOf : Event RlSig → Option UInt64
  | ⟨.addWritten, w⟩ => some w
  | _ => none

/-- The event counts a lost record. -/
def isLoss : Event RlSig → Bool
  | ⟨.addOverwritten, _⟩ => true
  | _ => false

/-- The records in lock order. -/
def appendsOf {ι : Type} (log : List (ι × Event RlSig)) : List SensorRecord :=
  (log.map Prod.snd).filterMap appendOf

/-- What the threads found in `g_written`, in the order they counted. -/
def countsOf {ι : Type} (log : List (ι × Event RlSig)) : List UInt64 := (log.map Prod.snd).filterMap countOf

/-- How often a lost record was counted. -/
def lossesOf {ι : Type} (log : List (ι × Event RlSig)) : Nat := (log.map Prod.snd).countP isLoss

/-- The statics after the operations of `log`. -/
structure RlTracks {ι : Type} (log : List (ι × Event RlSig)) (r : RingLog) : Prop where
  wraps : Wraps r.ring (appendsOf log)
  head : r.head = UInt64.ofNat (appendsOf log).length
  counts : countsOf log = (List.range (countsOf log).length).map UInt64.ofNat
  written : r.written = UInt64.ofNat (countsOf log).length
  overwritten : r.overwritten = UInt64.ofNat (lossesOf log)

section Log

variable {ι : Type} (log : List (ι × Event RlSig)) (i : ι) (e : Event RlSig)

theorem appendsOf_concat : appendsOf (log ++ [(i, e)]) = appendsOf log ++ (appendOf e).toList := by
  rw [appendsOf, List.map_append, List.filterMap_append]
  cases he : appendOf e with
  | none => rw [List.map_singleton, List.filterMap_cons_none he]; rfl
  | some rec => rw [List.map_singleton, List.filterMap_cons_some he]; rfl

theorem countsOf_concat : countsOf (log ++ [(i, e)]) = countsOf log ++ (countOf e).toList := by
  rw [countsOf, List.map_append, List.filterMap_append]
  cases he : countOf e with
  | none => rw [List.map_singleton, List.filterMap_cons_none he]; rfl
  | some rec => rw [List.map_singleton, List.filterMap_cons_some he]; rfl

theorem lossesOf_concat : lossesOf (log ++ [(i, e)]) = lossesOf log + if isLoss e then 1 else 0 := by
  rw [lossesOf, List.map_append, List.countP_append, List.map_singleton, List.countP_singleton]
  rfl

end Log

theorem toNat_slot (m : Nat) : (UInt64.ofNat m % RING_SLOTS).toNat = m % 1024 := by
  rw [UInt64.toNat_mod, UInt64.toNat_ofNat']
  exact Nat.mod_mod_of_dvd m (by decide)

theorem tracks_open {ι : Type} (before : RingLog) : RlTracks ([] : List (ι × Event RlSig)) (rlOpen before) where
  wraps := wraps_nil _
  head := rfl
  counts := rfl
  written := rfl
  overwritten := rfl

section Steps

variable {ι : Type} {log : List (ι × Event RlSig)} {r : RingLog}

theorem RlTracks.append (htracks : RlTracks log r) (i : ι) (rec : SensorRecord) :
    RlTracks (log ++ [(i, ⟨.append rec, ()⟩)]) (r.append rec) := by
  have happends : appendsOf (log ++ [(i, ⟨.append rec, ()⟩)]) = appendsOf log ++ [rec] := appendsOf_concat _ _ _
  have hcounts : countsOf (log ++ [(i, ⟨.append rec, ()⟩)]) = countsOf log :=
    (countsOf_concat _ _ _).trans (List.append_nil _)
  have hslot : (r.head % RING_SLOTS).toNat = (appendsOf log).length % r.ring.length := by
    rw [htracks.head, toNat_slot, r.size]
  refine ⟨?_, ?_, hcounts ▸ htracks.counts, hcounts ▸ htracks.written, ?_⟩
  · show Wraps (r.ring.set (r.head % RING_SLOTS).toNat rec) _
    rw [happends, hslot]
    exact htracks.wraps.append (by rw [r.size]; decide) rec
  · rw [happends, List.length_append, UInt64.ofNat_add, ← htracks.head]
    rfl
  · rw [lossesOf_concat]
    exact htracks.overwritten

theorem RlTracks.addWritten (htracks : RlTracks log r) (i : ι) :
    RlTracks (log ++ [(i, ⟨.addWritten, r.written⟩)]) { r with written := r.written + 1 } := by
  have happends : appendsOf (log ++ [(i, ⟨.addWritten, r.written⟩)]) = appendsOf log :=
    (appendsOf_concat _ _ _).trans (List.append_nil _)
  have hcounts : countsOf (log ++ [(i, ⟨.addWritten, r.written⟩)]) = countsOf log ++ [r.written] :=
    countsOf_concat _ _ _
  refine ⟨happends ▸ htracks.wraps, happends ▸ htracks.head, ?_, ?_, ?_⟩
  · rw [hcounts, List.length_append, List.length_singleton, List.range_succ, List.map_append, ← htracks.counts,
      htracks.written]
    rfl
  · rw [hcounts, List.length_append, UInt64.ofNat_add, ← htracks.written]
    rfl
  · rw [lossesOf_concat]
    exact htracks.overwritten

theorem RlTracks.addOverwritten (htracks : RlTracks log r) (i : ι) :
    RlTracks (log ++ [(i, ⟨.addOverwritten, r.overwritten⟩)]) { r with overwritten := r.overwritten + 1 } := by
  have happends : appendsOf (log ++ [(i, ⟨.addOverwritten, r.overwritten⟩)]) = appendsOf log :=
    (appendsOf_concat _ _ _).trans (List.append_nil _)
  have hcounts : countsOf (log ++ [(i, ⟨.addOverwritten, r.overwritten⟩)]) = countsOf log :=
    (countsOf_concat _ _ _).trans (List.append_nil _)
  refine ⟨happends ▸ htracks.wraps, happends ▸ htracks.head, hcounts ▸ htracks.counts,
    hcounts ▸ htracks.written, ?_⟩
  rw [lossesOf_concat, UInt64.ofNat_add, ← htracks.overwritten]
  rfl

/-- Every operation of any thread keeps the statics in step with the log. -/
theorem RlTracks.step (htracks : RlTracks log r) (i : ι) (o : RlOp) :
    RlTracks (log ++ [(i, ⟨o, (rlHandler o ((), r)).1⟩)]) (rlHandler o ((), r)).2.2 := by
  cases o with
  | append rec => exact htracks.append i rec
  | addWritten => exact htracks.addWritten i
  | addOverwritten => exact htracks.addOverwritten i

end Steps

theorem rlTracks_run {ι : Type} [DecidableEq ι] (records : ι → List SensorRecord) (before : RingLog)
    (schedule : List ι) : RlTracks (rlRun records before schedule).log (rlRun records before schedule).shared :=
  Pool.shared_invariant rlWriter rlHandler RlTracks (fun _ _ i o _ htracks => htracks.step i o)
    (tracks_open before) schedule

/-! ### One thread -/

/-- The count found more records written than there are slots. -/
def isLate (w : UInt64) : Bool := decide (w + 1 > RING_SLOTS)

/-- What a thread has done when it has written the records. -/
structure Booked (recs : List SensorRecord) (t : List (Event RlSig)) : Prop where
  appends : t.filterMap appendOf = recs
  counts : (t.filterMap countOf).length = recs.length
  losses : t.countP isLoss = (t.filterMap countOf).countP isLate

theorem Booked.append {recs recs' : List SensorRecord} {t t' : List (Event RlSig)} (hbooked : Booked recs t)
    (hbooked' : Booked recs' t') : Booked (recs ++ recs') (t ++ t') := by
  constructor
  · rw [List.filterMap_append, hbooked.appends, hbooked'.appends]
  · rw [List.filterMap_append, List.length_append, List.length_append, hbooked.counts, hbooked'.counts]
  · rw [List.filterMap_append, List.countP_append, List.countP_append, hbooked.losses, hbooked'.losses]

theorem rlWrite_path {rec : SensorRecord} {t : List (Event RlSig)} {x : Unit}
    (hpath : (rlWrite rec).Path t x) : Booked [rec] t := by
  obtain ⟨_, t₁, rfl, hrest⟩ := Proc.path_op_iff.mp hpath
  obtain ⟨w, t₂, rfl, hlast⟩ := Proc.path_op_iff.mp hrest
  change (if w + 1 > RING_SLOTS then _ else _ : Proc RlSig Unit).Path t₂ x at hlast
  by_cases hlate : w + 1 > RING_SLOTS
  · have hcounted : isLate w = true := decide_eq_true hlate
    rw [if_pos hlate] at hlast
    obtain ⟨v, t₃, rfl, hret⟩ := Proc.path_op_iff.mp hlast
    obtain ⟨rfl, -⟩ := Proc.path_ret_iff.mp hret
    refine ⟨rfl, rfl, ?_⟩
    show 1 = List.countP isLate [w]
    rw [List.countP_singleton, if_pos hcounted]
  · have hcounted : isLate w = false := decide_eq_false hlate
    rw [if_neg hlate] at hlast
    obtain ⟨rfl, -⟩ := Proc.path_ret_iff.mp hlast
    refine ⟨rfl, rfl, ?_⟩
    show 0 = List.countP isLate [w]
    rw [List.countP_singleton, hcounted]
    rfl

theorem rlWriter_path {recs : List SensorRecord} {t : List (Event RlSig)} {x : Unit}
    (hpath : Loop.Path rlWriter recs t x) : Booked recs t := by
  induction hpath with
  | @stop recs t r hturn =>
      cases recs with
      | nil =>
          obtain ⟨rfl, -⟩ := Proc.path_ret_iff.mp hturn
          exact ⟨rfl, rfl, rfl⟩
      | cons rec recs =>
          obtain ⟨t₁, mid, t₂, -, -, hret⟩ := Proc.path_bind_iff.mp hturn
          cases hret
  | @turn recs recs' t t' r hturn _ ih =>
      cases recs with
      | nil => cases hturn
      | cons rec recs =>
          obtain ⟨t₁, mid, t₂, rfl, hwrite, hret⟩ := Proc.path_bind_iff.mp hturn
          obtain ⟨rfl, hnext⟩ := Proc.path_ret_iff.mp hret
          cases hnext
          rw [List.append_nil]
          exact (rlWrite_path hwrite).append ih

/-! ### All threads -/

section Totals

variable {ι : Type} [DecidableEq ι] {records : ι → List SensorRecord} {before : RingLog} {schedule : List ι}

theorem booked_of_finished (hfinished : ∀ i, ((rlRun records before schedule).threads i).finished = true) (i : ι) :
    Booked (records i) (Pool.eventsOf (rlRun records before schedule).log i) := by
  obtain ⟨u, hdone⟩ := Thread.finished_iff.mp (hfinished i)
  exact rlWriter_path (Pool.thread_path hdone)

variable [Fintype ι]

theorem length_appends (hfinished : ∀ i, ((rlRun records before schedule).threads i).finished = true) :
    (appendsOf (rlRun records before schedule).log).length = ∑ i, (records i).length := by
  have hsum := Pool.measure_eq_sum (F := fun t : List (Event RlSig) => (t.filterMap appendOf).length) rfl
    (fun t t' => by rw [List.filterMap_append, List.length_append]) (rlRun records before schedule).log
  refine hsum.trans (Finset.sum_congr rfl fun i _ => ?_)
  rw [(booked_of_finished hfinished i).appends]

theorem length_counts (hfinished : ∀ i, ((rlRun records before schedule).threads i).finished = true) :
    (countsOf (rlRun records before schedule).log).length = ∑ i, (records i).length := by
  have hsum := Pool.measure_eq_sum (F := fun t : List (Event RlSig) => (t.filterMap countOf).length) rfl
    (fun t t' => by rw [List.filterMap_append, List.length_append]) (rlRun records before schedule).log
  refine hsum.trans (Finset.sum_congr rfl fun i _ => ?_)
  rw [(booked_of_finished hfinished i).counts]

/-- Each thread that found the slots used up has counted a lost record. -/
theorem losses_eq (hfinished : ∀ i, ((rlRun records before schedule).threads i).finished = true) :
    lossesOf (rlRun records before schedule).log =
      (countsOf (rlRun records before schedule).log).countP isLate := by
  have hlosses := Pool.measure_eq_sum (F := fun t : List (Event RlSig) => t.countP isLoss) rfl
    (fun t t' => List.countP_append) (rlRun records before schedule).log
  have hlate := Pool.measure_eq_sum (F := fun t : List (Event RlSig) => (t.filterMap countOf).countP isLate) rfl
    (fun t t' => by rw [List.filterMap_append, List.countP_append]) (rlRun records before schedule).log
  calc lossesOf (rlRun records before schedule).log
    _ = ∑ i, (Pool.eventsOf (rlRun records before schedule).log i).countP isLoss := hlosses
    _ = ∑ i, ((Pool.eventsOf (rlRun records before schedule).log i).filterMap countOf).countP isLate :=
        Finset.sum_congr rfl fun i _ => (booked_of_finished hfinished i).losses
    _ = (countsOf (rlRun records before schedule).log).countP isLate := hlate.symm

end Totals

/-- Without wrap-around the counts that are late are those from 1024 on. -/
theorem countP_late {n : Nat} (hn : n < 2 ^ 64) :
    ((List.range n).map UInt64.ofNat).countP isLate = n - 1024 := by
  induction n with
  | zero => rfl
  | succ n ih =>
      have hlate : isLate (UInt64.ofNat n) = decide (1024 ≤ n) := by
        have hnat : (UInt64.ofNat n + 1).toNat = n + 1 := by
          rw [show UInt64.ofNat n + 1 = UInt64.ofNat (n + 1) from (UInt64.ofNat_add n 1).symm]
          exact UInt64.toNat_ofNat_of_lt' hn
        refine decide_eq_decide.mpr ?_
        rw [gt_iff_lt, UInt64.lt_iff_toNat_lt, hnat]
        exact Nat.lt_succ_iff
      rw [List.range_succ, List.map_append, List.countP_append, ih (Nat.lt_of_succ_lt hn), List.map_singleton,
        List.countP_singleton, hlate]
      by_cases hfull : 1024 ≤ n
      · rw [if_pos (decide_eq_true hfull)]
        omega
      · rw [if_neg (by simpa using hfull)]
        omega

/-! ### What the ring holds -/

section Held

variable {ι : Type} {log : List (ι × Event RlSig)} {r : RingLog}

theorem RlTracks.toNat_head (htracks : RlTracks log r) (hlt : (appendsOf log).length < 2 ^ 64) :
    r.head.toNat = (appendsOf log).length := by
  rw [htracks.head]
  exact UInt64.toNat_ofNat_of_lt' hlt

theorem RlTracks.toNat_fill (htracks : RlTracks log r) (hlt : (appendsOf log).length < 2 ^ 64) :
    r.fill.toNat = min (appendsOf log).length 1024 := by
  have hhead := htracks.toNat_head hlt
  have hslots : RING_SLOTS.toNat = 1024 := rfl
  unfold RingLog.fill
  split_ifs with hroom
  · rw [UInt64.lt_iff_toNat_lt] at hroom
    omega
  · rw [UInt64.lt_iff_toNat_lt] at hroom
    omega

/-- The slot of record `k`, one of the last 1024. -/
theorem RlTracks.slot (htracks : RlTracks log r) {k : Nat} (hk : k < (appendsOf log).length)
    (hlast : (appendsOf log).length ≤ k + 1024) {i : UInt64} (hi : i.toNat = k) :
    some (r.ring.getD (i % RING_SLOTS).toNat zeroRecord) = (appendsOf log)[k]? := by
  have hslot : (i % RING_SLOTS).toNat = k % r.ring.length := by
    rw [UInt64.toNat_mod, hi, r.size]
    rfl
  have hwraps := htracks.wraps k hk (by rw [r.size]; exact hlast)
  rw [List.getD_eq_getElem?_getD, hslot, hwraps, List.getElem?_eq_getElem hk]
  rfl

theorem RlTracks.held_eq (htracks : RlTracks log r) (hlt : (appendsOf log).length < 2 ^ 64) :
    r.held = (appendsOf log).drop ((appendsOf log).length - 1024) := by
  have hhead := htracks.toNat_head hlt
  have hfill := htracks.toNat_fill hlt
  apply List.ext_getElem?
  intro i
  rw [RingLog.held, List.getElem?_map, List.getElem?_drop, hfill]
  by_cases hi : i < min (appendsOf log).length 1024
  · have hsub : (r.head - r.fill).toNat = (appendsOf log).length - min (appendsOf log).length 1024 := by
      rw [UInt64.toNat_sub_of_le _ _ (by rw [UInt64.le_iff_toNat_le]; omega), hhead, hfill]
    have hindex : (r.head - r.fill + UInt64.ofNat i).toNat = (appendsOf log).length - 1024 + i := by
      rw [UInt64.toNat_add, hsub, UInt64.toNat_ofNat_of_lt' (show i < 2 ^ 64 by omega),
        Nat.mod_eq_of_lt (by omega)]
      omega
    rw [List.getElem?_range hi, Option.map_some]
    exact htracks.slot (by omega) (by omega) hindex
  · rw [List.getElem?_eq_none (by rw [List.length_range]; omega), List.getElem?_eq_none (by omega)]
    rfl

/-- `rl_dump` walks back from the newest record. -/
theorem RlTracks.lines_eq (htracks : RlTracks log r) (hlt : (appendsOf log).length < 2 ^ 64) :
    (rlDump r).lines = (appendsOf log).reverse.take 5 := by
  have hhead := htracks.toNat_head hlt
  have hfill := htracks.toNat_fill hlt
  have hshown : (if r.fill < 5 then r.fill else 5 : UInt64).toNat = min (appendsOf log).length 5 := by
    have hfive : (5 : UInt64).toNat = 5 := rfl
    split_ifs with hfew
    · rw [UInt64.lt_iff_toNat_lt] at hfew
      omega
    · rw [UInt64.lt_iff_toNat_lt] at hfew
      omega
  apply List.ext_getElem?
  intro i
  simp only [rlDump, List.getElem?_map, hshown]
  by_cases hi : i < min (appendsOf log).length 5
  · have hindex : (r.head - 1 - UInt64.ofNat i).toNat = (appendsOf log).length - 1 - i := by
      have hone : (r.head - 1).toNat = (appendsOf log).length - 1 := by
        rw [UInt64.toNat_sub_of_le _ _ (by rw [UInt64.le_iff_toNat_le]; show 1 ≤ _; omega), hhead]
        rfl
      have hofNat : (UInt64.ofNat i).toNat = i := UInt64.toNat_ofNat_of_lt' (show i < 2 ^ 64 by omega)
      rw [UInt64.toNat_sub_of_le _ _ (by rw [UInt64.le_iff_toNat_le]; omega), hone, hofNat]
    rw [List.getElem?_range hi, Option.map_some, List.getElem?_take_of_lt (by omega),
      List.getElem?_reverse (by omega)]
    exact htracks.slot (by omega) (by omega) hindex
  · rw [List.getElem?_eq_none (by rw [List.length_range]; omega),
      List.getElem?_eq_none (by rw [List.length_take, List.length_reverse]; omega)]
    rfl

end Held

/-- **The totals of the sink and its last records are exact.** Any number of threads write `n` records after
`rl_open`, fewer than 2^64, under any interleaving of their steps. Once all have returned, `g_written` is `n`
and `g_overwritten` what `n` exceeds 1024 by; the ring holds the last 1024 records in lock order, and `rl_dump`
lists the last five, newest first. -/
theorem sink_totals_exact {ι : Type} [Fintype ι] [DecidableEq ι] (records : ι → List SensorRecord)
    (before : RingLog) (schedule : List ι) :
    let users := rlRun records before schedule
    let n := ∑ i, (records i).length
    let appended := appendsOf users.log
    (∀ i, (users.threads i).finished = true) → n < 2 ^ 64 →
      (∀ i, (Pool.eventsOf users.log i).filterMap appendOf = records i) ∧ appended.length = n ∧
      users.shared.written.toNat = n ∧ users.shared.overwritten.toNat = n - 1024 ∧
      users.shared.held = appended.drop (n - 1024) ∧ (rlDump users.shared).lines = appended.reverse.take 5 := by
  intro users n appended hfinished hn
  have htracks : RlTracks users.log users.shared := rlTracks_run records before schedule
  have hlen : appended.length = n := length_appends hfinished
  have hcounts : (countsOf users.log).length = n := length_counts hfinished
  have hlosses : lossesOf users.log = n - 1024 := by
    rw [show lossesOf users.log = _ from losses_eq hfinished, htracks.counts, hcounts]
    exact countP_late hn
  refine ⟨fun i => (booked_of_finished hfinished i).appends, hlen, ?_, ?_, ?_, ?_⟩
  · rw [htracks.written, hcounts]
    exact UInt64.toNat_ofNat_of_lt' hn
  · rw [htracks.overwritten, hlosses]
    exact UInt64.toNat_ofNat_of_lt' ((Nat.sub_le _ _).trans_lt hn)
  · rw [← hlen]
    exact htracks.held_eq (hlen ▸ hn)
  · exact htracks.lines_eq (hlen ▸ hn)

/-! ### More records than a counter holds -/

/-- A thread left alone comes to the end of its records. -/
theorem rlWriter_finishes {ι : Type} [DecidableEq ι] (recs : List SensorRecord) {pool : RlThreads ι} {i : ι}
    (hthread : pool.threads i = .busy (rlWriter recs)) :
    ∃ schedule, ((Pool.run rlWriter rlHandler pool schedule).threads i).finished = true := by
  induction recs generalizing pool with
  | nil =>
      refine ⟨[i], ?_⟩
      have hstep : (Pool.step rlWriter rlHandler pool i).threads i = .done () := by
        rw [Pool.step, hthread]
        exact Function.update_self _ _ _
      exact congrArg Thread.finished hstep
  | cons rec recs ih =>
      obtain ⟨s₁, t, x, hpath, hend⟩ := Pool.exists_turn_end rlWriter rlHandler hthread
      obtain ⟨t₁, u, t₂, -, -, hret⟩ := Proc.path_bind_iff.mp hpath
      obtain ⟨-, rfl⟩ := Proc.path_ret_iff.mp hret
      have hstep : (Pool.step rlWriter rlHandler (Pool.run rlWriter rlHandler pool s₁) i).threads i =
          .busy (rlWriter recs) := by
        rw [Pool.step, hend]
        exact Function.update_self _ _ _
      obtain ⟨s₂, hfinished⟩ := ih hstep
      refine ⟨s₁ ++ i :: s₂, ?_⟩
      rw [Pool.run_append]
      exact hfinished

/-- The statics when the program starts. -/
def zeroLog : RingLog := ⟨List.replicate 1024 zeroRecord, 0, 0, 0, List.length_replicate⟩

/-- One thread writes 2^64 records: counter and head are back at 0, and nothing is listed. -/
theorem sink_totals_wrap :
    ∃ schedule : List Unit,
      let users := rlRun (fun _ => List.replicate (2 ^ 64) zeroRecord) zeroLog schedule
      (∀ i, (users.threads i).finished = true) ∧ (appendsOf users.log).length = 2 ^ 64 ∧
        users.shared.written = 0 ∧ (rlDump users.shared).lines = [] := by
  have hfinishes : ∃ schedule : List Unit,
      ((rlRun (fun _ => List.replicate (2 ^ 64) zeroRecord) zeroLog schedule).threads ()).finished = true :=
    rlWriter_finishes _ rfl
  obtain ⟨schedule, hfinished⟩ := hfinishes
  refine ⟨schedule, fun _ => hfinished, ?_⟩
  have htracks := rlTracks_run (fun _ : Unit => List.replicate (2 ^ 64) zeroRecord) zeroLog schedule
  have hall : ∀ i, ((rlRun (fun _ => List.replicate (2 ^ 64) zeroRecord) zeroLog schedule).threads i).finished =
      true := fun _ => hfinished
  have hsum : ∑ _i : Unit, (List.replicate (2 ^ 64) zeroRecord).length = 2 ^ 64 := by
    rw [Fintype.sum_unique, List.length_replicate]
  have happends := (length_appends hall).trans hsum
  have hhead : (rlRun (fun _ => List.replicate (2 ^ 64) zeroRecord) zeroLog schedule).shared.head = 0 := by
    rw [htracks.head, happends]
    decide
  refine ⟨happends, ?_, ?_⟩
  · rw [htracks.written, (length_counts hall).trans hsum]
    decide
  · simp only [rlDump, RingLog.fill, hhead]
    rfl

/-- One thread writes two records; the dump shows the second one first. -/
theorem sink_totals_exact_two :
    let recs : List SensorRecord := [⟨7, 1, 0, 0, 0⟩, ⟨7, 2, 0, 0, 0⟩]
    let users := rlRun (fun _ : Unit => recs) zeroLog [(), (), (), (), (), (), ()]
    (∀ i, (users.threads i).finished = true) ∧ users.shared.written.toNat = 2 ∧
      (rlDump users.shared).lines = recs.reverse := by
  intro recs users
  have hfinished : ∀ i, (users.threads i).finished = true := fun _ => rfl
  have hexact := sink_totals_exact (fun _ : Unit => recs) zeroLog [(), (), (), (), (), (), ()] hfinished
    (by decide)
  exact ⟨hfinished, hexact.2.2.1, hexact.2.2.2.2.2⟩

end PulseLink
