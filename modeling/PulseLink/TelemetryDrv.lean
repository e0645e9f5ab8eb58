import PulseLink.BasePool
import PulseLink.Tring

/-! The character device of `kmod/telemetry_drv.c`. Each spin-locked section is one atomic operation on the
ring; any number of processes call `write`, `read` and `ioctl` in any interleaving. The history of the
sections is that of a bounded queue which drops its oldest record when full. -/

namespace PulseLink

def REC_SZ : Nat := 24
def BATCH : Nat := 32

/-- `struct pl_stats`. -/
structure PlStats where
  produced : UInt64
  dropped : UInt64
  inRing : UInt32
  capacity : UInt32
  deriving DecidableEq, Repr

/-- What a call returns: a byte count, 0, or an error. -/
inductive DrvResult where
  | bytes (n : Nat)
  | zero
  | einval
  | efault
  | eagain
  | erestartsys
  deriving DecidableEq, Repr

/-- The atomic operations of the driver. `readLocked` is the section of `tlm_read` under the lock: `none`
if it finds the ring empty. The last one has no effect: it records the records a read has delivered. -/
inductive DrvOp where
  | copyFromUser
  | push (rec : TelemetryRecord)
  | wakeUp
  | readLocked (want : Nat)
  | waitEvent
  | copyToUser
  | getStats
  | reset
  | delivered (len : Nat) (recs : List TelemetryRecord)
  deriving DecidableEq, Repr

/-- Copies and waits answer whether they went through. -/
abbrev DrvOp.Ans : DrvOp → Type
  | .copyFromUser => Bool
  | .readLocked _ => Option (List TelemetryRecord)
  | .waitEvent => Bool
  | .copyToUser => Bool
  | .getStats => PlStats
  | _ => Unit

abbrev DrvSig : Sig := ⟨DrvOp, DrvOp.Ans⟩

abbrev DrvProc := Proc DrvSig

abbrev drv (o : DrvOp) : DrvProc o.Ans := Proc.perform (I := DrvSig) o

/-! ### The calls -/

/-- The loop of `tlm_write` over the `n` records from number `i` on; `false` when a copy faults. -/
def writeRecords (ubuf : Nat → TelemetryRecord) : Nat → Nat → DrvProc Bool
  | _, 0 => return true
  | i, n + 1 => do
      let ok ← drv .copyFromUser
      if ok then
        drv (.push (ubuf i))
        writeRecords ubuf (i + 1) n
      else return false

/-- `tlm_write`. -/
def tlmWrite (len : Nat) (ubuf : Nat → TelemetryRecord) : DrvProc DrvResult :=
  if len / REC_SZ = 0 then return .einval
  else do
    let ok ← writeRecords ubuf 0 (len / REC_SZ)
    if ok then
      drv .wakeUp
      return .bytes (len / REC_SZ * REC_SZ)
    else return .efault

/-- `tlm_read` up to the next time it would lock the ring again: what it returns and the records it has copied to its
caller; `none` sends it round its loop. -/
def tlmReadTry (nonblock : Bool) (len : Nat) : DrvProc (Option (DrvResult × List TelemetryRecord)) :=
  if len / REC_SZ = 0 then return some (.einval, [])
  else do
    let batch ← drv (.readLocked (if len / REC_SZ < BATCH then len / REC_SZ else BATCH))
    match batch with
    | none =>
        if nonblock then return some (.eagain, [])
        else
          let woken ← drv .waitEvent
          return if woken then none else some (.erestartsys, [])
    | some recs =>
        let ok ← drv .copyToUser
        if ok then
          drv (.delivered len recs)
          return some (.bytes (recs.length * REC_SZ), recs)
        else return some (.efault, [])

/-- A system call on the device. -/
inductive DrvCall where
  | write (len : Nat) (ubuf : Nat → TelemetryRecord)
  | read (nonblock : Bool) (len : Nat)
  | stats
  | reset

/-- A process working through its calls and keeping what they return; a blocked read stays in front. -/
def tlmUser : Loop DrvSig (List DrvCall × List DrvResult) (List DrvResult)
  | ([], results) => return .inr results
  | (.write len ubuf :: calls, results) => do
      let result ← tlmWrite len ubuf
      return .inl (calls, results ++ [result])
  | (.read nonblock len :: calls, results) => do
      let result ← tlmReadTry nonblock len
      match result with
      | none => return .inl (.read nonblock len :: calls, results)
      | some (result, _) => return .inl (calls, results ++ [result])
  | (.stats :: calls, results) => do
      let _ ← drv .getStats
      let ok ← drv .copyToUser
      return .inl (calls, results ++ [if ok then .zero else .efault])
  | (.reset :: calls, results) => do
      drv .reset
      return .inl (calls, results ++ [.zero])

section Uses

variable {P : DrvOp → Prop}

theorem tlmWrite_uses (hcopy : P .copyFromUser) (hpush : ∀ rec, P (.push rec)) (hwake : P .wakeUp) (len : Nat)
    (ubuf : Nat → TelemetryRecord) : (tlmWrite len ubuf).Uses P := by
  have hloop : ∀ n i, (writeRecords ubuf i n).Uses P := by
    intro n
    induction n with
    | zero => exact fun _ => trivial
    | succ n ih =>
        intro i
        refine ⟨hcopy, fun ok => ?_⟩
        cases ok with
        | true => exact ⟨hpush (ubuf i), fun _ => ih (i + 1)⟩
        | false => trivial
  unfold tlmWrite
  split_ifs
  · trivial
  · refine (hloop _ 0).bind fun ok => ?_
    cases ok with
    | true => exact ⟨hwake, fun _ => trivial⟩
    | false => trivial

theorem tlmReadTry_uses (hlock : ∀ want, P (.readLocked want)) (hwait : P .waitEvent) (hcopy : P .copyToUser)
    (hdelivered : ∀ len recs, P (.delivered len recs)) (nonblock : Bool) (len : Nat) :
    (tlmReadTry nonblock len).Uses P := by
  by_cases hzero : len / REC_SZ = 0
  · rw [tlmReadTry, if_pos hzero]
    trivial
  · rw [tlmReadTry, if_neg hzero]
    refine ⟨hlock _, fun batch => ?_⟩
    cases batch with
    | none =>
        cases nonblock with
        | true => trivial
        | false => exact ⟨hwait, fun _ => trivial⟩
    | some recs =>
        refine ⟨hcopy, fun ok => ?_⟩
        cases ok with
        | true => exact ⟨hdelivered len recs, fun _ => trivial⟩
        | false => trivial

end Uses

/-! ### The handler -/

/-- What the kernel will answer one process: whether its user copies and its waits go through. A list used
up means that they do. -/
structure UserEnv where
  copies : List Bool
  waits : List Bool
  deriving DecidableEq, Repr

def nextOk : List Bool → Bool × List Bool
  | [] => (true, [])
  | ok :: rest => (ok, rest)

def drvHandler : Handler DrvSig (UserEnv × Tring)
  | .copyFromUser, (env, ring) => ((nextOk env.copies).1, { env with copies := (nextOk env.copies).2 }, ring)
  | .copyToUser, (env, ring) => ((nextOk env.copies).1, { env with copies := (nextOk env.copies).2 }, ring)
  | .waitEvent, (env, ring) => ((nextOk env.waits).1, { env with waits := (nextOk env.waits).2 }, ring)
  | .push rec, (env, ring) => ((), env, (tringPush ring rec).2)
  | .readLocked want, (env, ring) =>
      if ring.count = 0 then (none, env, ring)
      else (some (tringPopUpTo want ring).1, env, (tringPopUpTo want ring).2)
  | .getStats, (env, ring) => (⟨ring.produced, ring.dropped, ring.count, TRING_CAP⟩, env, ring)
  | .reset, (env, ring) => ((), env, tringInit ring)
  | .wakeUp, w => ((), w)
  | .delivered _ _, w => ((), w)

abbrev DrvUsers (ι : Type) := Pool DrvSig ι (List DrvCall × List DrvResult) (List DrvResult) UserEnv Tring

/-- All processes before their first call. -/
def drvStart {ι : Type} (calls : ι → List DrvCall) (envs : ι → UserEnv) (ring : Tring) : DrvUsers ι :=
  .start tlmUser (fun i => (calls i, [])) envs ring

/-- The processes after steps in the given order. -/
def drvRun {ι : Type} [DecidableEq ι] (calls : ι → List DrvCall) (envs : ι → UserEnv) (ring : Tring)
    (schedule : List ι) : DrvUsers ι :=
  Pool.run tlmUser drvHandler (drvStart calls envs ring) schedule

/-- A process that has returned from its calls has performed a path of its program. -/
theorem path_of_done {ι : Type} [DecidableEq ι] {calls : ι → List DrvCall} {envs : ι → UserEnv} {ring : Tring}
    {schedule : List ι} {i : ι} {results : List DrvResult}
    (hdone : (drvRun calls envs ring schedule).threads i = .done results) :
    Loop.Path tlmUser (calls i, []) (Pool.eventsOf (drvRun calls envs ring schedule).log i) results := by
  have hstands := Pool.thread_stands tlmUser drvHandler (fun i => (calls i, [])) envs ring schedule i
  unfold drvRun drvStart at hdone ⊢
  rw [hdone] at hstands
  exact hstands.path

/-! ### The history of the locked sections -/

abbrev DrvLog (ι : Type) := List (ι × Event DrvSig)

section History

variable {ι : Type}

/-- What one section does to the queue of records. -/
def History.section (h : History TelemetryRecord) : Event DrvSig → History TelemetryRecord
  | ⟨.push rec, _⟩ => h.push 256 rec
  | ⟨.readLocked want, some _⟩ => h.take want
  | _ => h

/-- The queue of records and what left it, from the sections in lock order. -/
def historyOf (log : DrvLog ι) : History TelemetryRecord :=
  log.foldl (fun h entry => h.section entry.2) .empty

/-- The record a section pushed. -/
def pushOf : Event DrvSig → Option TelemetryRecord
  | ⟨.push rec, _⟩ => some rec
  | _ => none

/-- The records a read section popped, if it found any. -/
def batchOf : Event DrvSig → Option (List TelemetryRecord)
  | ⟨.readLocked _, some recs⟩ => some recs
  | _ => none

/-- All records pushed, in lock order. -/
def pushesOf (log : DrvLog ι) : List TelemetryRecord := log.filterMap fun entry => pushOf entry.2

/-- The batches popped, in lock order. -/
def batchesOf (log : DrvLog ι) : List (List TelemetryRecord) := log.filterMap fun entry => batchOf entry.2

theorem historyOf_append (log : DrvLog ι) (i : ι) (e : Event DrvSig) :
    historyOf (log ++ [(i, e)]) = (historyOf log).section e := by
  unfold historyOf
  rw [List.foldl_append]
  rfl

theorem pushesOf_append (log : DrvLog ι) (i : ι) (e : Event DrvSig) :
    pushesOf (log ++ [(i, e)]) = pushesOf log ++ (pushOf e).toList := by
  unfold pushesOf
  rw [List.filterMap_append]
  cases h : pushOf e <;> simp [h]

theorem batchesOf_append (log : DrvLog ι) (i : ι) (e : Event DrvSig) :
    batchesOf (log ++ [(i, e)]) = batchesOf log ++ (batchOf e).toList := by
  unfold batchesOf
  rw [List.filterMap_append]
  cases h : batchOf e <;> simp [h]

/-- Each read section that found records got as many of the oldest as it wanted. -/
def ReadsServed (log : DrvLog ι) : Prop :=
  ∀ before i want recs after, log = before ++ (i, ⟨.readLocked want, some recs⟩) :: after →
    recs = (historyOf before).queue.take want ∧ (historyOf before).queue ≠ []

theorem ReadsServed.append {log : DrvLog ι} (hreads : ReadsServed log) {i : ι} {e : Event DrvSig}
    (he : ∀ want recs, e = ⟨.readLocked want, some recs⟩ →
      recs = (historyOf log).queue.take want ∧ (historyOf log).queue ≠ []) :
    ReadsServed (log ++ [(i, e)]) := by
  intro before j want recs after hlog
  rcases List.eq_nil_or_concat after with rfl | ⟨after', last, rfl⟩
  · obtain ⟨rfl, hlast⟩ := List.append_inj' hlog rfl
    rw [List.singleton_inj, Prod.mk.injEq] at hlast
    exact he want recs hlast.2
  · rw [List.concat_eq_append, ← List.cons_append, ← List.append_assoc] at hlog
    obtain ⟨hlog, -⟩ := List.append_inj' hlog rfl
    exact hreads before j want recs after' hlog

/-- The ring after the sections of `log` holds what their history says. -/
structure Tracks (log : DrvLog ι) (ring : Tring) : Prop where
  valid : ring.Valid
  contents : ring.contents = (historyOf log).queue
  pushed : (historyOf log).pushed = pushesOf log
  taken : (historyOf log).left .taken = (batchesOf log).flatten
  produced : ring.produced = UInt64.ofNat (historyOf log).pushed.length
  dropped : ring.dropped = UInt64.ofNat ((historyOf log).left .overwritten).length
  reads : ReadsServed log

theorem tracks_init (ring : Tring) : Tracks ([] : DrvLog ι) (tringInit ring) where
  valid := ring.valid_init
  contents := rfl
  pushed := rfl
  taken := rfl
  produced := rfl
  dropped := rfl
  reads := by
    intro before i want recs after hlog
    simp at hlog

/-- An operation that neither pushes nor pops leaves the history. -/
theorem Tracks.skip {log : DrvLog ι} {ring : Tring} (htracks : Tracks log ring) (i : ι) {e : Event DrvSig}
    (hsection : ∀ h : History TelemetryRecord, h.section e = h) (hpush : pushOf e = none)
    (hbatch : batchOf e = none) : Tracks (log ++ [(i, e)]) ring where
  valid := htracks.valid
  contents := by rw [historyOf_append, hsection]; exact htracks.contents
  pushed := by
    rw [historyOf_append, hsection, pushesOf_append, hpush, htracks.pushed]
    exact (List.append_nil _).symm
  taken := by
    rw [historyOf_append, hsection, batchesOf_append, hbatch, htracks.taken]
    simp
  produced := by rw [historyOf_append, hsection]; exact htracks.produced
  dropped := by rw [historyOf_append, hsection]; exact htracks.dropped
  reads := htracks.reads.append (by
    rintro want recs rfl
    cases hbatch)

/-- A push appends to the history. -/
theorem Tracks.push {log : DrvLog ι} {ring : Tring} (htracks : Tracks log ring) (i : ι)
    (rec : TelemetryRecord) : Tracks (log ++ [(i, ⟨.push rec, ()⟩)]) (tringPush ring rec).2 := by
  have hhist : historyOf (log ++ [(i, ⟨.push rec, ()⟩)]) = (historyOf log).push 256 rec :=
    historyOf_append log i _
  have hlen : ring.count.toNat = (historyOf log).queue.length := by
    rw [← htracks.contents, Tring.length_contents]
  have hpushed : ((historyOf log).push 256 rec).pushed = pushesOf (log ++ [(i, ⟨.push rec, ()⟩)]) := by
    rw [History.pushed_push, htracks.pushed, pushesOf_append]
    rfl
  have htaken : ((historyOf log).push 256 rec).left .taken =
      (batchesOf (log ++ [(i, ⟨.push rec, ()⟩)])).flatten := by
    rw [History.taken_push, htracks.taken, batchesOf_append]
    simp [batchOf]
  have hproduced : ring.produced + 1 = UInt64.ofNat ((historyOf log).push 256 rec).pushed.length := by
    rw [History.pushed_push, List.length_append, UInt64.ofNat_add, htracks.produced]
    rfl
  have hoverwritten := History.length_overwritten_push (show 0 < 256 by decide) (historyOf log) rec
  have hreads : ReadsServed (log ++ [(i, ⟨.push rec, ()⟩)]) := htracks.reads.append (by
    intro want recs he
    cases he)
  by_cases hroom : ring.count.toNat < 256
  · obtain ⟨hvalid, hcontents, hprod, hdrop⟩ := Tring.push_room htracks.valid rec hroom
    rw [if_pos (hlen ▸ hroom), Nat.add_zero] at hoverwritten
    rw [← hhist] at hpushed htaken hproduced hoverwritten
    refine ⟨hvalid, ?_, hpushed, htaken, hprod.trans hproduced, ?_, hreads⟩
    · rw [hcontents, hhist, History.push, if_pos (hlen ▸ hroom), htracks.contents]
    · rw [hdrop, hoverwritten, htracks.dropped]
  · have hfull : ring.count.toNat = 256 := by
      have := htracks.valid.count_le
      omega
    obtain ⟨hvalid, hcontents, hprod, hdrop⟩ := Tring.push_full htracks.valid rec hfull
    rw [if_neg (hlen ▸ hroom)] at hoverwritten
    rw [← hhist] at hpushed htaken hproduced hoverwritten
    refine ⟨hvalid, ?_, hpushed, htaken, hprod.trans hproduced, ?_, hreads⟩
    · rw [hcontents, hhist, History.push, if_neg (hlen ▸ hroom), htracks.contents]
    · rw [hdrop, hoverwritten, htracks.dropped, UInt64.ofNat_add]
      rfl

/-- A read section that finds records takes the oldest. -/
theorem Tracks.take {log : DrvLog ι} {ring : Tring} (htracks : Tracks log ring) (i : ι) (want : Nat)
    (hsome : ring.count ≠ 0) :
    Tracks (log ++ [(i, ⟨.readLocked want, some (tringPopUpTo want ring).1⟩)]) (tringPopUpTo want ring).2 := by
  obtain ⟨hrecs, hvalid, hcontents, hprod, hdrop⟩ := Tring.popUpTo_eq htracks.valid want
  have hhist : historyOf (log ++ [(i, ⟨.readLocked want, some (tringPopUpTo want ring).1⟩)]) =
      (historyOf log).take want := historyOf_append log i _
  have hne : (historyOf log).queue ≠ [] := by
    rw [← htracks.contents, ← List.length_pos_iff, Tring.length_contents, Nat.pos_iff_ne_zero]
    exact fun h => hsome (UInt32.toNat_inj.mp h)
  refine ⟨hvalid, ?_, ?_, ?_, ?_, ?_, htracks.reads.append ?_⟩
  · rw [hcontents, hhist, htracks.contents]
    rfl
  · rw [hhist, History.pushed_take, htracks.pushed, pushesOf_append]
    exact (List.append_nil _).symm
  · rw [hhist, History.taken_take, htracks.taken, batchesOf_append, hrecs, htracks.contents]
    simp [batchOf]
  · rw [hprod, hhist, History.pushed_take, htracks.produced]
  · rw [hdrop, hhist, History.overwritten_take, htracks.dropped]
  · intro want' recs he
    cases he
    exact ⟨by rw [hrecs, htracks.contents], hne⟩

/-- Every operation but a reset keeps the ring in step with the history. -/
theorem Tracks.step {log : DrvLog ι} {ring : Tring} (htracks : Tracks log ring) (i : ι) {o : DrvOp}
    (hreset : o ≠ .reset) (env : UserEnv) :
    Tracks (log ++ [(i, ⟨o, (drvHandler o (env, ring)).1⟩)]) (drvHandler o (env, ring)).2.2 := by
  cases o with
  | push rec => exact htracks.push i rec
  | readLocked want =>
      by_cases hzero : ring.count = 0
      · simp only [drvHandler, if_pos hzero]
        exact htracks.skip i (fun _ => rfl) rfl rfl
      · simp only [drvHandler, if_neg hzero]
        exact htracks.take i want hzero
  | reset => exact absurd rfl hreset
  | copyFromUser => exact htracks.skip i (fun _ => rfl) rfl rfl
  | copyToUser => exact htracks.skip i (fun _ => rfl) rfl rfl
  | waitEvent => exact htracks.skip i (fun _ => rfl) rfl rfl
  | wakeUp => exact htracks.skip i (fun _ => rfl) rfl rfl
  | getStats => exact htracks.skip i (fun _ => rfl) rfl rfl
  | delivered len recs => exact htracks.skip i (fun _ => rfl) rfl rfl

end History

/-! ### What a read delivers -/

/-- How many records a read of `len` bytes may return. -/
def readLimit (len : Nat) : Nat := if len / REC_SZ < BATCH then len / REC_SZ else BATCH

theorem readLimit_eq (len : Nat) : readLimit len = min 32 (len / 24) := by
  unfold readLimit
  show (if len / 24 < 32 then len / 24 else 32) = _
  split_ifs <;> omega

/-- The operation delivers at most the records `recs` of a read of `len` bytes. -/
def DeliversOnly (len : Nat) (recs : List TelemetryRecord) (o : DrvOp) : Prop :=
  ∀ len' recs', o = .delivered len' recs' → len' = len ∧ recs' = recs

/-- The operation delivers nothing. -/
def DeliversNone (o : DrvOp) : Prop := ∀ len recs, o ≠ .delivered len recs

/-- Records are delivered only by a turn that popped them, in a section that wanted as many as fit. -/
theorem delivered_turn {calls : List DrvCall} {results : List DrvResult} {t : List (Event DrvSig)}
    {q : DrvProc ((List DrvCall × List DrvResult) ⊕ List DrvResult)} (hreach : (tlmUser (calls, results)).Reach t q)
    {len : Nat} {recs : List TelemetryRecord} (hmem : ⟨.delivered len recs, ()⟩ ∈ t) :
    0 < len / REC_SZ ∧ ⟨.readLocked (readLimit len), some recs⟩ ∈ t := by
  have hnone : ¬ (tlmUser (calls, results)).Uses DeliversNone := by
    intro huses
    exact huses.reach hreach _ hmem len recs rfl
  cases calls with
  | nil => exact absurd trivial hnone
  | cons call calls =>
      cases call with
      | write len' ubuf =>
          refine absurd ?_ hnone
          exact (tlmWrite_uses (by simp [DeliversNone]) (by simp [DeliversNone]) (by simp [DeliversNone]) len'
            ubuf).bind fun _ => trivial
      | stats =>
          refine absurd ?_ hnone
          exact ⟨by simp [DeliversNone], fun _ => ⟨by simp [DeliversNone], fun _ => trivial⟩⟩
      | reset =>
          refine absurd ?_ hnone
          exact ⟨by simp [DeliversNone], fun _ => trivial⟩
      | read nonblock len' =>
          by_cases hzero : len' / REC_SZ = 0
          · refine absurd ?_ hnone
            simp only [tlmUser, tlmReadTry, if_pos hzero]
            trivial
          · simp only [tlmUser, tlmReadTry, if_neg hzero] at hreach
            rcases Proc.reach_op_iff.mp hreach with ⟨rfl, -⟩ | ⟨batch, t', rfl, hrest⟩
            · simp at hmem
            · have hmem' : ⟨.delivered len recs, ()⟩ ∈ t' := by
                rcases List.mem_cons.mp hmem with he | he
                · cases he
                · exact he
              cases batch with
              | none =>
                  refine absurd rfl (Proc.Uses.reach (P := DeliversNone) ?_ hrest _ hmem' len recs)
                  cases nonblock with
                  | true => trivial
                  | false => exact ⟨by simp [DeliversNone], fun woken => by cases woken <;> trivial⟩
              | some recs' =>
                  have honly := Proc.Uses.reach (P := DeliversOnly len' recs') ?_ hrest _ hmem'
                  · obtain ⟨rfl, rfl⟩ := honly len recs rfl
                    exact ⟨Nat.pos_of_ne_zero hzero, List.mem_cons_self⟩
                  · refine ⟨by simp [DeliversOnly], fun ok => ?_⟩
                    cases ok with
                    | true =>
                        refine ⟨?_, fun _ => trivial⟩
                        rintro len'' recs'' ⟨⟩
                        exact ⟨rfl, rfl⟩
                    | false => trivial

/-- The length asked for and the number of bytes delivered. -/
def deliveryOf : Event DrvSig → Option (Nat × Nat)
  | ⟨.delivered len recs, _⟩ => some (len, 24 * recs.length)
  | _ => none

/-- The length asked for and the byte count returned, if the call is a read that returns one. -/
def readCount : DrvCall × DrvResult → Option (Nat × Nat)
  | (.read _ len, .bytes n) => some (len, n)
  | _ => none

theorem deliveryOf_none {t : List (Event DrvSig)} (ht : ∀ e ∈ t, DeliversNone e.op) : t.filterMap deliveryOf = [] := by
  refine List.filterMap_eq_nil_iff.mpr ?_
  rintro ⟨o, ans⟩ he
  cases o with
  | delivered len recs => exact absurd rfl (ht _ he len recs)
  | _ => rfl

/-- A try delivers what it returns. -/
theorem tlmReadTry_delivers {nonblock : Bool} {len : Nat} {t : List (Event DrvSig)}
    {x : Option (DrvResult × List TelemetryRecord)} (hpath : (tlmReadTry nonblock len).Path t x) :
    t.filterMap deliveryOf = x.elim [] fun result => (readCount (.read nonblock len, result.1)).toList := by
  by_cases hzero : len / REC_SZ = 0
  · rw [tlmReadTry, if_pos hzero] at hpath
    obtain ⟨rfl, rfl⟩ := Proc.path_ret_iff.mp hpath
    rfl
  rw [tlmReadTry, if_neg hzero] at hpath
  obtain ⟨batch, t₁, rfl, hrest⟩ := Proc.path_op_iff.mp hpath
  cases batch with
  | none =>
      cases nonblock with
      | true =>
          obtain ⟨rfl, rfl⟩ := Proc.path_ret_iff.mp hrest
          rfl
      | false =>
          obtain ⟨woken, t₂, rfl, hlast⟩ := Proc.path_op_iff.mp hrest
          obtain ⟨rfl, rfl⟩ := Proc.path_ret_iff.mp hlast
          cases woken <;> rfl
  | some recs =>
      obtain ⟨ok, t₂, rfl, hlast⟩ := Proc.path_op_iff.mp hrest
      cases ok with
      | true =>
          obtain ⟨done, t₃, rfl, hret⟩ := Proc.path_op_iff.mp hlast
          obtain ⟨rfl, rfl⟩ := Proc.path_ret_iff.mp hret
          show [(len, 24 * recs.length)] = [(len, recs.length * 24)]
          rw [Nat.mul_comm]
      | false =>
          obtain ⟨rfl, rfl⟩ := Proc.path_ret_iff.mp hlast
          rfl

/-- What a turn of a process does: it leaves, or goes round the loop of a read, or its next call returns. -/
theorem tlmUser_turn {calls : List DrvCall} {results : List DrvResult} {t : List (Event DrvSig)}
    {x : (List DrvCall × List DrvResult) ⊕ List DrvResult} (hpath : (tlmUser (calls, results)).Path t x) :
    (calls = [] ∧ t = [] ∧ x = .inr results) ∨
    (x = .inl (calls, results) ∧ t.filterMap deliveryOf = []) ∨
    ∃ call rest r, calls = call :: rest ∧ x = .inl (rest, results ++ [r]) ∧
      t.filterMap deliveryOf = (readCount (call, r)).toList := by
  cases calls with
  | nil =>
      obtain ⟨rfl, rfl⟩ := Proc.path_ret_iff.mp hpath
      exact Or.inl ⟨rfl, rfl, rfl⟩
  | cons call rest =>
      refine Or.inr ?_
      cases call with
      | write len ubuf =>
          obtain ⟨t₁, r, t₂, rfl, hwrite, hret⟩ := Proc.path_bind_iff.mp hpath
          obtain ⟨rfl, rfl⟩ := Proc.path_ret_iff.mp hret
          have huses : (tlmWrite len ubuf).Uses DeliversNone :=
            tlmWrite_uses (by simp [DeliversNone]) (by simp [DeliversNone]) (by simp [DeliversNone]) len ubuf
          rw [List.append_nil]
          exact Or.inr ⟨_, rest, r, rfl, rfl, deliveryOf_none (huses.path hwrite).1⟩
      | read nonblock len =>
          obtain ⟨t₁, result, t₂, rfl, htry, hret⟩ := Proc.path_bind_iff.mp hpath
          have hdelivers := tlmReadTry_delivers htry
          cases result with
          | none =>
              obtain ⟨rfl, rfl⟩ := Proc.path_ret_iff.mp hret
              rw [List.append_nil]
              exact Or.inl ⟨rfl, hdelivers⟩
          | some result =>
              obtain ⟨rfl, rfl⟩ := Proc.path_ret_iff.mp hret
              rw [List.append_nil]
              exact Or.inr ⟨_, rest, result.1, rfl, rfl, hdelivers⟩
      | stats =>
          obtain ⟨stats, t₁, rfl, hrest⟩ := Proc.path_op_iff.mp hpath
          obtain ⟨ok, t₂, rfl, hret⟩ := Proc.path_op_iff.mp hrest
          obtain ⟨rfl, rfl⟩ := Proc.path_ret_iff.mp hret
          exact Or.inr ⟨_, rest, _, rfl, rfl, rfl⟩
      | reset =>
          obtain ⟨done, t₁, rfl, hret⟩ := Proc.path_op_iff.mp hpath
          obtain ⟨rfl, rfl⟩ := Proc.path_ret_iff.mp hret
          exact Or.inr ⟨_, rest, _, rfl, rfl, rfl⟩

/-- What a process that has made all its calls has got from them. -/
theorem results_of_path {calls : List DrvCall} {t : List (Event DrvSig)} {results : List DrvResult}
    (hpath : Loop.Path tlmUser (calls, []) t results) :
    results.length = calls.length ∧ (calls.zip results).filterMap readCount = t.filterMap deliveryOf := by
  rw [← List.nil_append t]
  -- the calls made so far and what they have returned
  refine Loop.Path.invariant
    (J := fun s t => ∃ made, calls = made ++ s.1 ∧ s.2.length = made.length ∧
      (made.zip s.2).filterMap readCount = t.filterMap deliveryOf)
    (Q := fun results t => results.length = calls.length ∧
      (calls.zip results).filterMap readCount = t.filterMap deliveryOf) ?_ ⟨[], rfl, rfl, List.filterMap_nil.symm⟩ hpath
  rintro ⟨rest, results⟩ t₀ turn x ⟨made, hcalls, hlen, hcounts⟩ hturn
  rcases tlmUser_turn hturn with ⟨rfl, rfl, rfl⟩ | ⟨rfl, hnothing⟩ | ⟨call, rest, r, rfl, rfl, hdelivers⟩
  · rw [List.append_nil] at hcalls ⊢
    subst hcalls
    exact ⟨hlen, hcounts⟩
  · refine ⟨made, hcalls, hlen, ?_⟩
    rw [List.filterMap_append, hnothing, List.append_nil]
    exact hcounts
  · refine ⟨made ++ [call], ?_, ?_, ?_⟩
    · rw [hcalls, List.append_assoc, List.singleton_append]
    · rw [List.length_append, List.length_append, hlen]
      rfl
    · rw [List.zip_append hlen.symm, List.filterMap_append, hcounts, List.filterMap_append, hdelivers]
      cases hcount : readCount (call, r) <;> simp [hcount]

/-- Every reachable state without a reset keeps the ring in step with the history. -/
theorem tracks_run {ι : Type} [DecidableEq ι] (calls : ι → List DrvCall) (envs : ι → UserEnv)
    (ring : Tring) (schedule : List ι) :
    let pool := drvRun calls envs (tringInit ring) schedule
    (∀ entry ∈ pool.log, entry.2.op ≠ .reset) → Tracks pool.log pool.shared := by
  refine Pool.shared_invariant tlmUser drvHandler
    (fun log ring => (∀ entry ∈ log, entry.2.op ≠ .reset) → Tracks log ring) ?_ ?_ schedule
  · intro log ring i o env hlog hreset
    have hbefore : ∀ entry ∈ log, entry.2.op ≠ .reset :=
      fun entry hentry => hreset entry (List.mem_append_left _ hentry)
    have ho : o ≠ .reset := hreset _ (List.mem_append_right _ (List.mem_singleton.mpr rfl))
    exact (hlog hbefore).step i ho env
  · exact fun _ => tracks_init ring

/-- **Nothing is lost, duplicated or reordered by `/dev/telemetry`.** In every state that any interleaving
of the processes reaches without a reset: the records pushed are those popped or overwritten, in the order
they left, followed by those in the ring; the popped ones are what the read sections returned, one after
the other, and a subsequence of the pushed ones; the counters count them; what a read delivers is
non-empty, fits its buffer and is all there was, up to that limit; and the byte counts that the reads of a process
have returned are those of the records delivered to it, read by read. -/
theorem telemetry_lossless {ι : Type} [DecidableEq ι] (calls : ι → List DrvCall) (envs : ι → UserEnv)
    (ring : Tring) (schedule : List ι) :
    let pool := drvRun calls envs (tringInit ring) schedule
    (∀ entry ∈ pool.log, entry.2.op ≠ .reset) →
    let h := historyOf pool.log
    pushesOf pool.log = h.gone.map Prod.snd ++ pool.shared.contents ∧
      (batchesOf pool.log).flatten = h.left .taken ∧
      (h.left .taken).Sublist (pushesOf pool.log) ∧
      (pushesOf pool.log).length =
        (h.left .taken).length + (h.left .overwritten).length + pool.shared.contents.length ∧
      pool.shared.produced = UInt64.ofNat (pushesOf pool.log).length ∧
      pool.shared.dropped = UInt64.ofNat (h.left .overwritten).length ∧
      pool.shared.count.toNat = pool.shared.contents.length ∧ pool.shared.count.toNat ≤ 256 ∧
      ReadsServed pool.log ∧
      (∀ i len recs, ⟨.delivered len recs, ()⟩ ∈ Pool.eventsOf pool.log i →
        1 ≤ recs.length ∧ recs.length ≤ min 32 (len / 24) ∧
          ⟨.readLocked (min 32 (len / 24)), some recs⟩ ∈ Pool.eventsOf pool.log i) ∧
      ∀ i results, pool.threads i = .done results → results.length = (calls i).length ∧
        ((calls i).zip results).filterMap readCount = (Pool.eventsOf pool.log i).filterMap deliveryOf := by
  intro pool hreset h
  have htracks : Tracks pool.log pool.shared := tracks_run calls envs ring schedule hreset
  have hpushed : pushesOf pool.log = h.pushed := htracks.pushed.symm
  have hcount : pool.shared.count.toNat = pool.shared.contents.length := (Tring.length_contents _).symm
  refine ⟨?_, htracks.taken.symm, ?_, ?_, ?_, htracks.dropped, hcount, htracks.valid.count_le, htracks.reads,
    ?_, fun i results hdone => results_of_path (path_of_done hdone)⟩
  · rw [hpushed, htracks.contents]
    rfl
  · rw [hpushed]
    exact h.left_sublist .taken
  · rw [hpushed, h.length_pushed, htracks.contents]
  · rw [hpushed]
    exact htracks.produced
  · intro i len recs hdelivered
    -- the turn that delivered popped exactly these records
    obtain ⟨turn, s, q, -, hreach, hmem, hturn⟩ := Pool.turn_of_mem (P := fun _ _ => True)
      (fun _ _ _ _ _ _ => trivial) (fun _ => trivial) (Pool.mem_eventsOf.mp hdelivered)
    obtain ⟨hpos, hread⟩ := delivered_turn hreach hmem
    rw [readLimit_eq] at hread
    have hevent := hturn _ hread
    obtain ⟨before, after, hlog⟩ := List.append_of_mem hevent
    obtain ⟨hrecs, hne⟩ := htracks.reads before i _ recs after hlog
    have hqueue := List.length_pos_iff.mpr hne
    have hpos' : 0 < len / 24 := hpos
    have hlen : recs.length = min (min 32 (len / 24)) (historyOf before).queue.length := by
      rw [hrecs, List.length_take]
    exact ⟨by omega, by omega, Pool.mem_eventsOf.mpr hevent⟩

def emptyRing : Tring := ⟨List.replicate 256 default, 0, 0, 0, 0, List.length_replicate⟩

/-- A process that writes two records and one that reads up to four. -/
def writerAndReader : Bool → List DrvCall
  | true => [.write 48 fun i => ⟨7, UInt32.ofNat i, 0, 0, 0⟩]
  | false => [.read false 100]

/-- The writer pushes both records before the reader takes its lock. -/
def writerFirst : DrvUsers Bool :=
  drvRun writerAndReader (fun _ => ⟨[], []⟩) (tringInit emptyRing)
    [true, true, true, true, true, false, false, false, false, false]

theorem telemetry_lossless_writerFirst :
    (∀ entry ∈ writerFirst.log, entry.2.op ≠ .reset) ∧ writerFirst.threads false = .done [.bytes 48] ∧
      pushesOf writerFirst.log =
        (historyOf writerFirst.log).gone.map Prod.snd ++ writerFirst.shared.contents ∧
      (batchesOf writerFirst.log).flatten = (historyOf writerFirst.log).left .taken ∧
      (Pool.eventsOf writerFirst.log false).filterMap deliveryOf = [(100, 48)] := by
  have hreset : ∀ entry ∈ writerFirst.log, entry.2.op ≠ .reset := by decide +kernel
  have hdone : writerFirst.threads false = .done [.bytes 48] := rfl
  obtain ⟨hpushed, htaken, hrest⟩ := telemetry_lossless writerAndReader (fun _ => ⟨[], []⟩) emptyRing
    [true, true, true, true, true, false, false, false, false, false] hreset
  obtain ⟨-, -, -, -, -, -, -, -, hreturned⟩ := hrest
  exact ⟨hreset, hdone, hpushed, htaken, (hreturned false _ hdone).2.symm⟩

end PulseLink
