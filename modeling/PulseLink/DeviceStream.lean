import PulseLink.BaseMonitor
import PulseLink.Readout
import PulseLink.Server
import PulseLink.TelemetryCalls

/-! Both ends of `/dev/telemetry`: the workers of a server started with `-s dev` hand their records to
`cd_write_record`, and any number of `telemetry_cat` processes print what they read. A caller that is told 0
has its record in the ring, once; from there a record is printed by one reader, overwritten, or lost with a
read whose copy faulted. -/

namespace PulseLink

/-! ### The programs -/

/-- A `sensor_record_t` read as a `struct telemetry_record`: the two have the same layout. -/
def asTelemetry (rec : SensorRecord) : TelemetryRecord :=
  ⟨rec.deviceId, rec.seq, rec.temperature, rec.humidity, rec.serverTimestampNs⟩

/-- What the processes do: operations of the driver, and `printf`. The last one has no effect: it records what
`cd_write_record` returned to its caller. -/
inductive DevOp where
  | dev (o : DrvOp)
  | printf (text : List Char)
  | returned (rec : SensorRecord) (result : Int)
  deriving DecidableEq, Repr

abbrev DevOp.Ans : DevOp → Type
  | .dev o => o.Ans
  | _ => Unit

abbrev DevSig : Sig := ⟨DevOp, DevOp.Ans⟩

abbrev DevProc := Proc DevSig

abbrev devDo (o : DevOp) : DevProc o.Ans := Proc.perform (I := DevSig) o

/-- A system call on the device. -/
def syscall {α : Type} (p : DrvProc α) : DevProc α := p.expand fun o => devDo (.dev o)

/-- `cd_write_record`. -/
def cdWriteRecord (rec : SensorRecord) : DevProc Int := do
  let n ← syscall (tlmWrite REC_SZ fun _ => asTelemetry rec)
  return if n = .bytes REC_SZ then 0 else -1

/-- The number a call returned, if it is one. -/
def DrvResult.count : DrvResult → Nat
  | .bytes n => n
  | _ => 0

/-- The inner loop of `telemetry_cat` over the records it got. -/
def printRecords : List TelemetryRecord → DevProc Unit
  | [] => return ()
  | r :: rest => do
      devDo (.printf (telemetryCatLine r))
      printRecords rest

/-- Where a process is: a caller of `cd_write_record` with what its calls have returned, from which it decides
on the next record, or `telemetry_cat` in front of its `read`. -/
inductive DevPc where
  | sink (next : List (SensorRecord × Int) → Option SensorRecord) (calls : List (SensorRecord × Int))
  | cat (recs : List TelemetryRecord)

def devProcess : Loop DevSig DevPc Unit
  | .sink next calls =>
      match next calls with
      | none => return .inr ()
      | some rec => do
          let result ← cdWriteRecord rec
          devDo (.returned rec result)
          return .inl (.sink next (calls ++ [(rec, result)]))
  | .cat recs => do
      let n ← syscall (tlmReadTry false (32 * REC_SZ))
      match n with
      | none => return .inl (.cat recs)
      | some (n, copied) =>
          if n.isError then return .inr ()
          else do
            let recs := copied ++ recs.drop copied.length
            printRecords (recs.take (n.count / REC_SZ))
            return .inl (.cat recs)

/-- Driver operations act as before; the others leave the device alone. -/
def devHandler : Handler DevSig (UserEnv × Tring)
  | .dev o, w => drvHandler o w
  | .printf _, w => ((), w)
  | .returned _ _, w => ((), w)

abbrev DevPool (ι : Type) := Pool DevSig ι DevPc Unit UserEnv Tring

/-- The processes after steps in the given order, from a freshly loaded driver. -/
def devRun {ι : Type} [DecidableEq ι] (begins : ι → DevPc) (envs : ι → UserEnv) (ring : Tring)
    (schedule : List ι) : DevPool ι :=
  Pool.run devProcess devHandler (.start devProcess begins envs (tringInit ring)) schedule

/-! ### What a process is in the middle of -/

/-- A record pushed whose result has not been returned, the records taken and not printed, and whether a copy to
the reader has faulted. -/
structure Holding where
  owed : Option TelemetryRecord
  hand : List TelemetryRecord
  faulted : Bool
  deriving DecidableEq, Repr

/-- Between two calls. -/
def Holding.nothing : Holding := ⟨none, [], false⟩

def Holding.onDrv : Monitor DrvSig Holding
  | s, ⟨.push rec, _⟩ => if s.owed = none then some { s with owed := some rec } else none
  | s, ⟨.readLocked want, some recs⟩ => if s.hand = [] ∧ want ≤ 32 then some { s with hand := recs } else none
  | s, ⟨.copyToUser, false⟩ => some { s with faulted := true }
  | _, ⟨.reset, _⟩ => none
  | s, _ => some s

/-- A result of 0 is returned for the record pushed, any other if there is none; a line is printed for the first
record in hand. -/
def Holding.next : Monitor DevSig Holding
  | s, ⟨.dev o, ans⟩ => s.onDrv ⟨o, ans⟩
  | s, ⟨.printf text, _⟩ =>
      if s.hand.head?.map telemetryCatLine = some text then some { s with hand := s.hand.tail } else none
  | s, ⟨.returned rec result, _⟩ =>
      if s.owed = (if result = 0 then some (asTelemetry rec) else none) then some { s with owed := none } else none

theorem syscall_follows {α : Type} {Q : Holding → α → Prop} {s : Holding} {p : DrvProc α}
    (hp : p.Follows Holding.onDrv Q s) : (syscall p).Follows Holding.next Q s := by
  refine hp.expand ?_
  intro o s hmoves ans
  obtain ⟨s', hs'⟩ := hmoves ans
  exact ⟨s', hs', hs'⟩

/-- A write of one record pushes it if it says so, and nothing otherwise. -/
theorem tlmWrite_follows (rec : TelemetryRecord) :
    (tlmWrite REC_SZ fun _ => rec).Follows Holding.onDrv
      (fun s n => s = { Holding.nothing with owed := if n = .bytes REC_SZ then some rec else none })
      Holding.nothing := by
  intro copied
  cases copied with
  | false => exact ⟨_, rfl, rfl⟩
  | true => exact ⟨_, rfl, fun _ => ⟨_, rfl, fun _ => ⟨_, rfl, rfl⟩⟩⟩

/-- `cd_write_record` returns 0 with its record in the ring, and -1 without. -/
theorem cdWriteRecord_follows (rec : SensorRecord) :
    (cdWriteRecord rec).Follows Holding.next
      (fun s (result : Int) => s = { Holding.nothing with owed := if result = 0 then some (asTelemetry rec) else none })
      Holding.nothing := by
  refine (syscall_follows (tlmWrite_follows (asTelemetry rec))).bind ?_
  rintro s n rfl
  by_cases hn : n = .bytes REC_SZ
  · rw [if_pos hn]
    show _ = _
    rw [if_pos hn]
    rfl
  · rw [if_neg hn]
    show _ = _
    rw [if_neg hn]
    rfl

/-- How a process may leave. -/
def Holding.Leaves (s : Holding) : Prop := s.owed = none ∧ (s.hand ≠ [] → s.faulted = true)

/-- Behind a read: what it says it has read is what it has copied. -/
def Holding.HasRead (s : Holding) : Option (DrvResult × List TelemetryRecord) → Prop
  | none => s = .nothing
  | some (n, copied) =>
      if n.isError then s.Leaves
      else s = { Holding.nothing with hand := copied } ∧ n.count / REC_SZ = copied.length

theorem tlmReadTry_follows :
    (tlmReadTry false (32 * REC_SZ)).Follows Holding.onDrv Holding.HasRead Holding.nothing := by
  intro batch
  cases batch with
  | none =>
      refine ⟨_, rfl, fun woken => ⟨_, rfl, ?_⟩⟩
      cases woken with
      | true => exact rfl
      | false => exact ⟨rfl, fun h => absurd rfl h⟩
  | some batch =>
      refine ⟨{ Holding.nothing with hand := batch }, rfl, fun ok => ?_⟩
      cases ok with
      | false => exact ⟨_, rfl, rfl, fun _ => rfl⟩
      | true =>
          refine ⟨_, rfl, fun _ => ⟨_, rfl, rfl, ?_⟩⟩
          exact Nat.mul_div_cancel _ (by decide)

theorem printRecords_follows (recs : List TelemetryRecord) :
    (printRecords recs).Follows Holding.next (fun s _ => s = Holding.nothing)
      { Holding.nothing with hand := recs } := by
  induction recs with
  | nil => exact rfl
  | cons r rest ih => exact fun _ => ⟨{ Holding.nothing with hand := rest }, if_pos rfl, ih⟩

/-- Each turn starts and ends with nothing held; a process leaves with records in hand only after a fault. -/
theorem devProcess_follows (pc : DevPc) :
    (devProcess pc).Follows Holding.next
      (Monitor.Turned (fun _ s => s = Holding.nothing) fun _ s => s.Leaves) Holding.nothing := by
  cases pc with
  | sink next calls =>
      cases hnext : next calls with
      | none =>
          simp only [devProcess, hnext]
          exact ⟨rfl, fun h => absurd rfl h⟩
      | some rec =>
          simp only [devProcess, hnext]
          refine (cdWriteRecord_follows rec).bind ?_
          rintro s result rfl
          exact fun _ => ⟨Holding.nothing, if_pos rfl, rfl⟩
  | cat recs =>
      refine (syscall_follows tlmReadTry_follows).bind ?_
      intro s result hs
      cases result with
      | none => exact hs
      | some result =>
          obtain ⟨n, copied⟩ := result
          cases herror : n.isError with
          | true =>
              simp only [Holding.HasRead, herror, if_true] at hs ⊢
              exact hs
          | false =>
              simp only [Holding.HasRead, herror, Bool.false_eq_true, if_false] at hs ⊢
              obtain ⟨rfl, hcount⟩ := hs
              rw [hcount, List.take_left']
              · exact (printRecords_follows _).bind fun s _ hs => hs
              · rfl

/-! ### What a process has done -/

/-- The driver's part of a trace. -/
def drvEvent : Event DevSig → Option (Event DrvSig)
  | ⟨.dev o, ans⟩ => some ⟨o, ans⟩
  | _ => none

/-- The record a push put into the ring. -/
def pushEvent (e : Event DevSig) : Option TelemetryRecord := (drvEvent e).bind pushOf

/-- The records a read took out of the ring. -/
def takeEvent (e : Event DevSig) : List TelemetryRecord := ((drvEvent e).bind batchOf).getD []

/-- The record of a call of `cd_write_record` that returned 0. -/
def acceptEvent : Event DevSig → Option TelemetryRecord
  | ⟨.returned rec result, _⟩ => if result = 0 then some (asTelemetry rec) else none
  | _ => none

def textEvent : Event DevSig → Option (List Char)
  | ⟨.printf text, _⟩ => some text
  | _ => none

/-- What the process is in the middle of makes up the difference between what it pushed and what it reported, and
between what it took and what it printed. -/
structure Holding.Accounts (s : Holding) (t : List (Event DevSig)) : Prop where
  pushed : t.filterMap pushEvent = t.filterMap acceptEvent ++ s.owed.toList
  taken : ∃ printed, t.flatMap takeEvent = printed ++ s.hand ∧
    t.filterMap textEvent = printed.map telemetryCatLine
  batch : s.hand = [] ∨ ∃ want recs, ⟨.dev (.readLocked want), some recs⟩ ∈ t ∧ want ≤ 32 ∧ s.hand <:+ recs
  fault : s.faulted = true → ⟨.dev .copyToUser, false⟩ ∈ t

theorem accounts_nothing : Holding.nothing.Accounts [] where
  pushed := rfl
  taken := ⟨[], rfl, rfl⟩
  batch := Or.inl rfl
  fault := fun h => by cases h

/-- What an event adds to the accounts is what it changes in hand. -/
theorem Holding.Accounts.extend {s s' : Holding} {t : List (Event DevSig)} {e : Event DevSig} (hs : s.Accounts t)
    (hpushed : s.owed.toList ++ (pushEvent e).toList = (acceptEvent e).toList ++ s'.owed.toList)
    (htaken : ∃ lines, s.hand ++ takeEvent e = lines ++ s'.hand ∧
      (textEvent e).toList = lines.map telemetryCatLine)
    (hbatch : s'.hand <:+ s.hand ∨ ∃ want, e = ⟨.dev (.readLocked want), some s'.hand⟩ ∧ want ≤ 32)
    (hfault : s'.faulted = true → s.faulted = true ∨ e = ⟨.dev .copyToUser, false⟩) :
    s'.Accounts (t ++ [e]) where
  pushed := by
    rw [filterMap_concat, filterMap_concat, hs.pushed, List.append_assoc, hpushed, List.append_assoc]
  taken := by
    obtain ⟨printed, hprinted, htext⟩ := hs.taken
    obtain ⟨lines, hlines, hnew⟩ := htaken
    refine ⟨printed ++ lines, ?_, ?_⟩
    · rw [List.flatMap_append, List.flatMap_singleton, hprinted, List.append_assoc, hlines, List.append_assoc]
    · rw [filterMap_concat, htext, hnew, List.map_append]
  batch := by
    rcases hbatch with hsuffix | ⟨want, rfl, hwant⟩
    · rcases hs.batch with hempty | ⟨want, recs, hmem, hwant, hhand⟩
      · rw [hempty] at hsuffix
        exact Or.inl (List.suffix_nil.mp hsuffix)
      · exact Or.inr ⟨want, recs, List.mem_append_left _ hmem, hwant, hsuffix.trans hhand⟩
    · exact Or.inr ⟨want, s'.hand, List.mem_append_right _ List.mem_cons_self, hwant, List.suffix_refl _⟩
  fault := by
    intro hfaulted
    rcases hfault hfaulted with hbefore | rfl
    · exact List.mem_append_left _ (hs.fault hbefore)
    · exact List.mem_append_right _ List.mem_cons_self

/-- An event that shows in none of the accounts. -/
theorem Holding.Accounts.skip {s : Holding} {t : List (Event DevSig)} {e : Event DevSig} (hs : s.Accounts t)
    (hpush : pushEvent e = none) (haccept : acceptEvent e = none) (htake : takeEvent e = [])
    (htext : textEvent e = none) : s.Accounts (t ++ [e]) := by
  refine hs.extend ?_ ⟨[], ?_, ?_⟩ (Or.inl (List.suffix_refl _)) Or.inl
  · rw [hpush, haccept]
    exact List.append_nil _
  · rw [htake]
    exact List.append_nil _
  · rw [htext]
    rfl

theorem Holding.Accounts.onDrv {s s' : Holding} {t : List (Event DevSig)} {o : DrvOp} {ans : o.Ans}
    (hs : s.Accounts t) (hmove : s.onDrv ⟨o, ans⟩ = some s') : s'.Accounts (t ++ [⟨.dev o, ans⟩]) := by
  cases o with
  | push rec =>
      obtain ⟨howed, hs'⟩ := Option.ite_none_right_eq_some.mp hmove
      cases hs'
      refine hs.extend ?_ ⟨[], List.append_nil _, rfl⟩ (Or.inl (List.suffix_refl _)) Or.inl
      rw [howed]
      rfl
  | readLocked want =>
      cases ans with
      | none =>
          cases hmove
          exact hs.skip rfl rfl rfl rfl
      | some recs =>
          obtain ⟨⟨hhand, hwant⟩, hs'⟩ := Option.ite_none_right_eq_some.mp hmove
          cases hs'
          refine hs.extend (List.append_nil _) ⟨[], ?_, rfl⟩ (Or.inr ⟨want, rfl, hwant⟩) Or.inl
          rw [hhand]
          rfl
  | copyToUser =>
      cases ans with
      | true =>
          cases hmove
          exact hs.skip rfl rfl rfl rfl
      | false =>
          cases hmove
          exact hs.extend (List.append_nil _) ⟨[], List.append_nil _, rfl⟩ (Or.inl (List.suffix_refl _))
            fun _ => Or.inr rfl
  | reset => cases hmove
  | copyFromUser => cases hmove; exact hs.skip rfl rfl rfl rfl
  | wakeUp => cases hmove; exact hs.skip rfl rfl rfl rfl
  | waitEvent => cases hmove; exact hs.skip rfl rfl rfl rfl
  | getStats => cases hmove; exact hs.skip rfl rfl rfl rfl
  | delivered len recs => cases hmove; exact hs.skip rfl rfl rfl rfl

theorem Holding.Accounts.next {s s' : Holding} {t : List (Event DevSig)} {e : Event DevSig} (hs : s.Accounts t)
    (hmove : s.next e = some s') : s'.Accounts (t ++ [e]) := by
  obtain ⟨o, ans⟩ := e
  cases o with
  | dev o => exact hs.onDrv hmove
  | printf text =>
      obtain ⟨hline, hs'⟩ := Option.ite_none_right_eq_some.mp hmove
      cases hs'
      obtain ⟨r, hr, rfl⟩ := Option.map_eq_some_iff.mp hline
      have hhand : s.hand = r :: s.hand.tail := List.eq_cons_of_mem_head? hr
      refine hs.extend (List.append_nil _) ⟨[r], ?_, rfl⟩ (Or.inl (List.tail_suffix _)) Or.inl
      rw [show takeEvent ⟨.printf (telemetryCatLine r), ans⟩ = [] from rfl, List.append_nil]
      exact hhand
  | returned rec result =>
      obtain ⟨howed, hs'⟩ := Option.ite_none_right_eq_some.mp hmove
      cases hs'
      refine hs.extend ?_ ⟨[], List.append_nil _, rfl⟩ (Or.inl (List.suffix_refl _)) Or.inl
      rw [howed]
      rfl

/-! ### All processes -/

section Log

variable {ι : Type}

/-- The sections of the driver, in lock order. -/
def drvLog (log : List (ι × Event DevSig)) : DrvLog ι :=
  log.filterMap fun entry => (drvEvent entry.2).map fun e => (entry.1, e)

theorem drvLog_append (log : List (ι × Event DevSig)) (i : ι) (e : Event DevSig) :
    drvLog (log ++ [(i, e)]) = drvLog log ++ ((drvEvent e).map fun e => (i, e)).toList :=
  filterMap_concat _ log (i, e)

theorem pushesOf_drvLog (log : List (ι × Event DevSig)) :
    pushesOf (drvLog log) = (log.map Prod.snd).filterMap pushEvent := by
  rw [pushesOf, drvLog, List.filterMap_filterMap, List.filterMap_map]
  refine List.filterMap_congr ?_
  intro entry _
  unfold pushEvent
  cases h : drvEvent entry.2 <;> simp [h]

theorem batchesOf_drvLog (log : List (ι × Event DevSig)) :
    (batchesOf (drvLog log)).flatten = (log.map Prod.snd).flatMap takeEvent := by
  induction log with
  | nil => rfl
  | cons entry log ih =>
      rw [List.map_cons, List.flatMap_cons, ← ih]
      unfold batchesOf drvLog takeEvent
      cases he : drvEvent entry.2 with
      | none => simp [he]
      | some e => cases hb : batchOf e <;> simp [he, hb]

theorem mem_drvLog {log : List (ι × Event DevSig)} {i : ι} {o : DrvOp} {ans : o.Ans}
    (hmem : (i, (⟨.dev o, ans⟩ : Event DevSig)) ∈ log) : (i, (⟨o, ans⟩ : Event DrvSig)) ∈ drvLog log :=
  List.mem_filterMap.mpr ⟨_, hmem, rfl⟩

/-- A read section pops no more than it wanted. -/
theorem Tracks.length_batch {log : DrvLog ι} {ring : Tring} (htracks : Tracks log ring) {i : ι} {want : Nat}
    {recs : List TelemetryRecord} (hmem : (i, ⟨.readLocked want, some recs⟩) ∈ log) : recs.length ≤ want := by
  obtain ⟨before, after, hlog⟩ := List.append_of_mem hmem
  rw [(htracks.reads before i want recs after hlog).1, List.length_take]
  exact Nat.min_le_left _ _

end Log

section Run

variable {ι : Type} [DecidableEq ι]

/-- What each process did, and what it is in the middle of. -/
theorem holding_run (begins : ι → DevPc) (envs : ι → UserEnv) (ring : Tring) (schedule : List ι) (i : ι) :
    ∃ s : Holding, Holding.next.Accepts .nothing (Pool.eventsOf (devRun begins envs ring schedule).log i) s ∧
      s.Accounts (Pool.eventsOf (devRun begins envs ring schedule).log i) ∧
      (((devRun begins envs ring schedule).threads i).finished = true → s.Leaves) := by
  have hstands := Pool.thread_stands devProcess devHandler begins envs (tringInit ring) schedule i
  obtain ⟨s, haccepts, htracks⟩ := hstands.accepts (J := fun _ s => s = Holding.nothing) (E := fun _ s => s.Leaves)
    (by rintro pc s rfl; exact devProcess_follows pc) rfl
  refine ⟨s, haccepts, ?_, ?_⟩
  · exact haccepts.invariant (fun s t e s' hs hmove => hs.next hmove) accounts_nothing
  · intro hfinished
    obtain ⟨r, hr⟩ := Thread.finished_iff.mp hfinished
    unfold devRun at hr
    rw [hr] at htracks
    exact htracks

/-- Nobody resets the ring. -/
theorem no_reset_run (begins : ι → DevPc) (envs : ι → UserEnv) (ring : Tring) (schedule : List ι) :
    ∀ entry ∈ (devRun begins envs ring schedule).log, entry.2.op ≠ .dev .reset := by
  rintro ⟨i, e⟩ hmem hreset
  obtain ⟨s, haccepts, -⟩ := holding_run begins envs ring schedule i
  obtain ⟨before, after, hsplit⟩ := List.append_of_mem (Pool.mem_eventsOf.mpr hmem)
  rw [hsplit] at haccepts
  obtain ⟨s₁, -, hrest⟩ := haccepts.split
  obtain ⟨o, ans⟩ := e
  cases hreset
  cases hrest with
  | cons hmove _ => cases hmove

/-- The ring is what the sections make of it. -/
theorem dev_tracks (begins : ι → DevPc) (envs : ι → UserEnv) (ring : Tring) (schedule : List ι) :
    Tracks (drvLog (devRun begins envs ring schedule).log) (devRun begins envs ring schedule).shared := by
  refine Pool.shared_invariant devProcess devHandler
    (fun log ring => (∀ entry ∈ log, entry.2.op ≠ .dev .reset) → Tracks (drvLog log) ring) ?_ ?_ schedule
    (no_reset_run begins envs ring schedule)
  · intro log ring i o env hlog hreset
    have hbefore := hlog fun entry hentry => hreset entry (List.mem_append_left _ hentry)
    have ho : o ≠ .dev .reset := hreset _ (List.mem_append_right _ (List.mem_singleton.mpr rfl))
    rw [drvLog_append]
    cases o with
    | dev o => exact hbefore.step i (fun h => ho (congrArg DevOp.dev h)) env
    | printf text => exact (List.append_nil (drvLog log)).symm ▸ hbefore
    | returned rec result => exact (List.append_nil (drvLog log)).symm ▸ hbefore
  · exact fun _ => tracks_init ring

/-- What a process has taken out came in the order of the pushes. -/
theorem taken_in_order (begins : ι → DevPc) (envs : ι → UserEnv) (ring : Tring) (schedule : List ι) (i : ι) :
    ((Pool.eventsOf (devRun begins envs ring schedule).log i).flatMap takeEvent).Sublist
      (pushesOf (drvLog (devRun begins envs ring schedule).log)) := by
  have htracks := dev_tracks begins envs ring schedule
  have hevents : (Pool.eventsOf (devRun begins envs ring schedule).log i).Sublist
      ((devRun begins envs ring schedule).log.map Prod.snd) := List.filter_sublist.map Prod.snd
  refine (hevents.flatMap takeEvent).trans ?_
  rw [← batchesOf_drvLog, ← htracks.taken, ← htracks.pushed]
  exact (historyOf (drvLog (devRun begins envs ring schedule).log)).left_sublist .taken

/-- The pushes, counted once by who made them and once by what became of them. -/
theorem records_conserved [Fintype ι] (begins : ι → DevPc) (envs : ι → UserEnv) (ring : Tring) (schedule : List ι)
    (r : TelemetryRecord) :
    let pool := devRun begins envs ring schedule
    ∑ i, ((Pool.eventsOf pool.log i).filterMap pushEvent).count r =
      ∑ i, ((Pool.eventsOf pool.log i).flatMap takeEvent).count r +
        ((historyOf (drvLog pool.log)).left .overwritten).count r + pool.shared.contents.count r := by
  intro pool
  have htracks : Tracks (drvLog pool.log) pool.shared := dev_tracks begins envs ring schedule
  have hby : (pushesOf (drvLog pool.log)).count r =
      ∑ i, ((Pool.eventsOf pool.log i).filterMap pushEvent).count r := by
    rw [pushesOf_drvLog]
    exact Pool.measure_eq_sum (F := fun t => (t.filterMap pushEvent).count r) rfl
      (fun t t' => by rw [List.filterMap_append, List.count_append]) pool.log
  have htaken : ((historyOf (drvLog pool.log)).left .taken).count r =
      ∑ i, ((Pool.eventsOf pool.log i).flatMap takeEvent).count r := by
    rw [htracks.taken, batchesOf_drvLog]
    exact Pool.measure_eq_sum (F := fun t => (t.flatMap takeEvent).count r) rfl
      (fun t t' => by rw [List.flatMap_append, List.count_append]) pool.log
  have hfates := (historyOf (drvLog pool.log)).pushed_perm.count_eq r
  rwa [htracks.pushed, hby, List.count_append, List.count_append, htaken, ← htracks.contents] at hfates

/-- **Every record accepted by the device is accounted for.** Any number of processes call `cd_write_record` with
any records, chosen from what their earlier calls returned, or run `telemetry_cat`, in any interleaving and with
any faults and signals. At every moment: what a process has pushed into the ring is what its calls have returned
0 for, in order, and at most one record whose call is still on its way; what a process has taken out is what it
has printed, line by line and in the order of the pushes, and at most 32 records not printed yet; only a fault
makes it leave with some. Every record was printed once, is in hand, was overwritten or is in the ring. -/
theorem dev_records_accounted [Fintype ι] (begins : ι → DevPc) (envs : ι → UserEnv) (ring : Tring)
    (schedule : List ι) :
    let pool := devRun begins envs ring schedule
    let events := Pool.eventsOf pool.log
    let accepted := fun i => (events i).filterMap acceptEvent
    ∃ owed printed inHand : ι → List TelemetryRecord,
      (∀ i, (events i).filterMap pushEvent = accepted i ++ owed i ∧ (owed i).length ≤ 1) ∧
      (∀ i, (events i).flatMap takeEvent = printed i ++ inHand i ∧ (inHand i).length ≤ 32 ∧
        (events i).filterMap textEvent = (printed i).map telemetryCatLine ∧
        (printed i).Sublist (pushesOf (drvLog pool.log))) ∧
      (∀ i, (pool.threads i).finished = true →
        owed i = [] ∧ (inHand i ≠ [] → ⟨.dev .copyToUser, false⟩ ∈ events i)) ∧
      ∀ r, ∑ i, (accepted i).count r + ∑ i, (owed i).count r =
        ∑ i, (printed i).count r + ∑ i, (inHand i).count r +
          ((historyOf (drvLog pool.log)).left .overwritten).count r + pool.shared.contents.count r := by
  intro pool events accepted
  have htracks : Tracks (drvLog pool.log) pool.shared := dev_tracks begins envs ring schedule
  choose s _ haccounts hleaves using holding_run begins envs ring schedule
  choose printed hprinted htext using fun i => (haccounts i).taken
  refine ⟨fun i => (s i).owed.toList, printed, fun i => (s i).hand, ?_, ?_, ?_, ?_⟩
  · intro i
    exact ⟨(haccounts i).pushed, Option.length_toList_le⟩
  · intro i
    refine ⟨hprinted i, ?_, htext i, ?_⟩
    · rcases (haccounts i).batch with hempty | ⟨want, recs, hmem, hwant, hsuffix⟩
      · exact (congrArg List.length hempty).trans_le (Nat.zero_le _)
      · have hrecs := htracks.length_batch (mem_drvLog (Pool.mem_eventsOf.mp hmem))
        exact hsuffix.length_le.trans (hrecs.trans hwant)
    · have htaken : ((events i).flatMap takeEvent).Sublist (pushesOf (drvLog pool.log)) :=
        taken_in_order begins envs ring schedule i
      rw [hprinted i] at htaken
      exact (List.sublist_append_left (printed i) (s i).hand).trans htaken
  · intro i hfinished
    obtain ⟨howed, hfault⟩ := hleaves i hfinished
    refine ⟨?_, fun hhand => (haccounts i).fault (hfault hhand)⟩
    show (s i).owed.toList = []
    rw [howed]
    rfl
  · intro r
    have hfates : ∑ i, ((events i).filterMap pushEvent).count r =
        ∑ i, ((events i).flatMap takeEvent).count r +
          ((historyOf (drvLog pool.log)).left .overwritten).count r + pool.shared.contents.count r :=
      records_conserved begins envs ring schedule r
    rw [← Finset.sum_add_distrib, ← Finset.sum_add_distrib]
    have hpush : ∀ i, ((events i).filterMap pushEvent).count r =
        (accepted i).count r + ((s i).owed.toList).count r := by
      intro i
      rw [(haccounts i).pushed, List.count_append]
    have htake : ∀ i, ((events i).flatMap takeEvent).count r = (printed i).count r + ((s i).hand).count r := by
      intro i
      rw [hprinted i, List.count_append]
    simp only [hpush, htake] at hfates
    exact hfates

end Run

end PulseLink
