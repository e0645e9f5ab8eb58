import PulseLink.Counters

/-! The device table and the sink under any interleaving of workers. A record carries the id in the header
of its packet, a credit goes to the device of the connection's HELLO. So table and sink agree about a run
exactly when, for every id, as many SENSOR packets carry it as came in on connections opened with it. -/

namespace PulseLink

/-! ### The sink and the log -/

variable {ι : Type}

/-- The sink has stored every record passed to it. -/
structure Recorded (start : List SensorRecord) (log : ServerLog ι) (ctx : ServerCtx) : Prop where
  sink : ∀ ok ∈ ctx.choices.sinkResults, ok = true
  stored : ctx.stored = start ++ recordsOf (events log)

theorem recordsOf_concat (log : ServerLog ι) (i : ι) (e : Event ServerSig) :
    recordsOf (events (log ++ [(i, e)])) = recordsOf (events log) ++ (recordOf e).toList := by
  rw [events_append, recordsOf_append]
  cases he : recordOf e with
  | none => simp [events, recordsOf, he]
  | some p => simp [events, recordsOf, he]

theorem Recorded.step {start : List SensorRecord} {log : ServerLog ι} {ctx : ServerCtx}
    (hrecorded : Recorded start log ctx) (i : ι) (o : ServerOp) (conn : Conn) :
    Recorded start (log ++ [(i, answer o conn ctx)]) (ctx.after o conn) := by
  have hkeep : ∀ {ctx' : ServerCtx}, ctx'.choices.sinkResults = ctx.choices.sinkResults →
      ctx'.stored = ctx.stored → recordOf (answer o conn ctx) = none →
      Recorded start (log ++ [(i, answer o conn ctx)]) ctx' := by
    intro ctx' hsink hstored hnone
    refine ⟨by rw [hsink]; exact hrecorded.sink, ?_⟩
    rw [hstored, recordsOf_concat, hnone, hrecorded.stored]
    simp
  cases o with
  | writeRecord rec =>
      have hdraw : (draw true ctx.choices.sinkResults).1 = true :=
        (draw_all (P := fun ok => ok = true) rfl hrecorded.sink).1
      refine ⟨fun ok hok => hrecorded.sink ok (mem_draw_of_mem hok), ?_⟩
      simp only [ServerCtx.after, serverHandler, hdraw, if_true]
      rw [recordsOf_concat, hrecorded.stored, List.append_assoc]
      rfl
  | writeFile path bytes =>
      refine hkeep ?_ ?_ rfl
      · simp only [ServerCtx.after, serverHandler]
        split <;> rfl
      · simp only [ServerCtx.after, serverHandler]
        split <;> rfl
  | _ => exact hkeep rfl rfl rfl

/-! ### Every interleaving -/

/-- The counter of every device has grown by the number of its new records. -/
def Agree (before after : ServerCtx) : Prop :=
  ∀ id, after.devices.okOf id = before.devices.okOf id +
    UInt64.ofNat ((after.stored.drop before.stored.length).countP fun rec => rec.deviceId = id)

/-- Every SENSOR packet of a connection carries the id of its HELLO. -/
def OneIdentity (t : List (Event ServerSig)) : Prop := ∀ h ∈ sensorsOf t, helloId t = some h.deviceId

/-- The SENSOR packets of a connection that carry an id in their header. -/
def labelledIn (id : UInt32) (t : List (Event ServerSig)) : Nat :=
  (sensorsOf t).countP fun h => h.deviceId = id

/-- The SENSOR packets of a connection, if it was opened with the id. -/
def openedIn (id : UInt32) (t : List (Event ServerSig)) : Nat :=
  if helloId t = some id then (sensorsOf t).length else 0

theorem OneIdentity.labelledIn_eq {t : List (Event ServerSig)} (hone : OneIdentity t) (id : UInt32) :
    labelledIn id t = openedIn id t := by
  rw [labelledIn, openedIn]
  split_ifs with hhello
  · refine List.countP_eq_length.mpr ?_
    intro h hh
    have heq := hone h hh
    rw [hhello, Option.some.injEq] at heq
    simp [heq]
  · refine List.countP_eq_zero.mpr ?_
    intro h hh hid
    simp only [decide_eq_true_eq] at hid
    subst hid
    exact hhello (hone h hh)

section Workers

variable [DecidableEq ι] {cfg : Config} {payloads : ι → PayloadBuf} {conns : ι → Conn} {ctx : ServerCtx}

theorem workerPool_recorded (hsink : ∀ ok ∈ ctx.choices.sinkResults, ok = true) (schedule : List ι) :
    Recorded ctx.stored (workerPool cfg payloads conns ctx schedule).log
      (workerPool cfg payloads conns ctx schedule).shared := by
  refine Pool.shared_invariant (clientWorker cfg) serverHandler (Recorded ctx.stored) ?_ ?_ schedule
  · intro log s i o conn hrecorded
    exact hrecorded.step i o conn
  · exact ⟨hsink, (List.append_nil _).symm⟩

/-- What is known about a run in which allocations and writes succeeded and all workers have left. -/
structure Finished (before : ServerCtx) (log : ServerLog ι) (after : ServerCtx) : Prop where
  table : Counted .ok before.devices log after
  sink : Recorded before.stored log after
  settled : ∀ i, Untied (Pool.eventsOf log i) ∨ ∃ id p, Tied (Pool.eventsOf log i) id p

theorem workerPool_finished (hwf : ctx.devices.WellFormed)
    (hcallocs : ∀ ok ∈ ctx.choices.callocs, ok = true)
    (hsink : ∀ ok ∈ ctx.choices.sinkResults, ok = true) {schedule : List ι}
    (hdone : ∀ i, ∃ why, (workerPool cfg payloads conns ctx schedule).threads i = .done why) :
    Finished ctx (workerPool cfg payloads conns ctx schedule).log
      (workerPool cfg payloads conns ctx schedule).shared := by
  have hcounted : Counted .ok ctx.devices (workerPool cfg payloads conns ctx schedule).log _ :=
    workerPool_counted .ok hwf hcallocs schedule
  refine ⟨hcounted, workerPool_recorded hsink schedule, ?_⟩
  intro i
  obtain ⟨why, hwhy⟩ := hdone i
  have hpath : Loop.Path (clientWorker cfg) ((fun i => WorkerPc.enter (payloads i)) i)
      (Pool.eventsOf (workerPool cfg payloads conns ctx schedule).log i) why := Pool.thread_path hwhy
  rcases worker_settled hpath with ⟨id, sid, hstarved⟩ | hsettled
  · exact absurd rfl (hcounted.table.memory _ (Pool.mem_eventsOf.mp hstarved) id sid)
  · exact hsettled

end Workers

section Sums

variable [Fintype ι] [DecidableEq ι] {before after : ServerCtx} {log : ServerLog ι}

/-- The records of an id are the SENSOR packets that carry it. -/
theorem Finished.records (hfinished : Finished before log after) (id : UInt32) :
    ((after.stored.drop before.stored.length).countP fun rec => rec.deviceId = id) =
      ∑ i, labelledIn id (Pool.eventsOf log i) := by
  rw [hfinished.sink.stored, List.drop_left]
  have hsum : (recordsOf (events log)).countP (fun rec => rec.deviceId = id) =
      ∑ i, (recordsOf (Pool.eventsOf log i)).countP fun rec => rec.deviceId = id := by
    refine Pool.measure_eq_sum (F := fun t => (recordsOf t).countP fun rec => rec.deviceId = id) rfl ?_ log
    intro t t'
    rw [recordsOf_append, List.countP_append]
  rw [hsum]
  refine Finset.sum_congr rfl fun i _ => ?_
  have hids : (recordsOf (Pool.eventsOf log i)).map SensorRecord.deviceId =
      (sensorsOf (Pool.eventsOf log i)).map PlHeader.deviceId := by
    rcases hfinished.settled i with huntied | ⟨_, _, htied⟩
    · rw [huntied.records, huntied.sensors]
      rfl
    · exact htied.records
  have hcount := congrArg (List.countP fun x => decide (x = id)) hids
  rw [List.countP_map, List.countP_map] at hcount
  exact hcount

/-- The credits of an id are the SENSOR packets of the connections opened with it. -/
theorem Finished.credits (hfinished : Finished before log after) (id : UInt32) :
    Counter.ok.added (after.devices.lookup id) (events log) = ∑ i, openedIn id (Pool.eventsOf log i) := by
  refine hfinished.table.added_eq_sum (fun i => helloId (Pool.eventsOf log i))
    (fun i => (sensorsOf (Pool.eventsOf log i)).length) ?_ id
  intro i
  rcases hfinished.settled i with huntied | ⟨id', p, htied⟩
  · exact Or.inl ⟨Or.inr (by rw [huntied.sensors]; rfl), huntied.credits⟩
  · exact Or.inr ⟨id', p, htied.hello, htied.grounds, htied.credits⟩

/-- **When table and sink agree.** Under any interleaving of workers on any streams, with allocations and
sink writes succeeding, once all workers have left: every device has been credited with as many readings as
the sink has records of it exactly when, for every id, as many SENSOR packets carry it in their header as
were accepted on connections opened with it (modulo the width of the counter). In particular they agree if
every SENSOR packet carries the id of its connection's HELLO. -/
theorem table_sink_agree_iff (cfg : Config) (payloads : ι → PayloadBuf) (conns : ι → Conn) {ctx : ServerCtx}
    (hwf : ctx.devices.WellFormed) (hcallocs : ∀ ok ∈ ctx.choices.callocs, ok = true)
    (hsink : ∀ ok ∈ ctx.choices.sinkResults, ok = true) {schedule : List ι}
    (hdone : ∀ i, ∃ why, (workerPool cfg payloads conns ctx schedule).threads i = .done why) :
    let pool := workerPool cfg payloads conns ctx schedule
    (Agree ctx pool.shared ↔
      ∀ id, (∑ i, labelledIn id (Pool.eventsOf pool.log i)) % 2 ^ 64 =
        (∑ i, openedIn id (Pool.eventsOf pool.log i)) % 2 ^ 64) ∧
    ((∀ i, OneIdentity (Pool.eventsOf pool.log i)) → Agree ctx pool.shared) := by
  intro pool
  have hfinished : Finished ctx pool.log pool.shared := workerPool_finished hwf hcallocs hsink hdone
  have hiff : Agree ctx pool.shared ↔
      ∀ id, (∑ i, labelledIn id (Pool.eventsOf pool.log i)) % 2 ^ 64 =
        (∑ i, openedIn id (Pool.eventsOf pool.log i)) % 2 ^ 64 := by
    refine forall_congr' fun id => ?_
    have hcount : pool.shared.devices.okOf id = ctx.devices.okOf id +
        UInt64.ofNat (Counter.ok.added (pool.shared.devices.lookup id) (events pool.log)) :=
      hfinished.table.count id
    rw [hfinished.records, hcount, hfinished.credits, add_right_inj, ← UInt64.toNat_inj, UInt64.toNat_ofNat',
      UInt64.toNat_ofNat']
    exact eq_comm
  refine ⟨hiff, fun hone => hiff.mpr fun id => ?_⟩
  simp only [(hone _).labelledIn_eq]

end Sums

instance (t : List (Event ServerSig)) : Decidable (OneIdentity t) :=
  inferInstanceAs (Decidable (∀ h ∈ sensorsOf t, helloId t = some h.deviceId))

/-- Two devices, 7 and 9, each opening its own connection; the second sends its one reading with the id
`label`. -/
def twoStreams (label : UInt32) : Bool → List UInt8
  | false => packetBytes PktType.hello.code 7 (helloPayload 1 0) ++ sensorStream [(7, oneReading)]
  | true => packetBytes PktType.hello.code 9 (helloPayload 1 0) ++ sensorStream [(label, oneReading)]

/-- Their two workers, taking turns until both have left. -/
def twoWorkers (label : UInt32) : Pool ServerSig Bool WorkerPc ExitReason Conn ServerCtx :=
  workerPool ⟨.little, none⟩ (fun _ => zeroPayload) (fun i => scripted (unread (twoStreams label i) []))
    freshServer (List.replicate 40 [false, true]).flatten

theorem table_sink_agree_iff_ownIds : Agree freshServer (twoWorkers 9).shared := by
  have hdone : ∀ i, ∃ why, (twoWorkers 9).threads i = .done why := by
    intro i
    refine Thread.finished_iff.mp ?_
    revert i
    decide +kernel
  have hone : ∀ i, OneIdentity (Pool.eventsOf (twoWorkers 9).log i) := by decide +kernel
  have hcallocs : ∀ ok ∈ freshServer.choices.callocs, ok = true := by simp [freshServer]
  have hsink : ∀ ok ∈ freshServer.choices.sinkResults, ok = true := by simp [freshServer]
  rw [twoWorkers] at hdone hone ⊢
  exact (table_sink_agree_iff _ _ _ DeviceTable.wellFormed_init hcallocs hsink hdone).2 hone

/-- The second device labels its reading with the id of the first: the sink holds two records of device 7,
the table one reading for each. -/
theorem table_sink_disagree_otherId :
    (∀ i, ∃ why, (twoWorkers 7).threads i = .done why) ∧ ¬ Agree freshServer (twoWorkers 7).shared := by
  refine ⟨?_, fun hagree => ?_⟩
  · intro i
    refine Thread.finished_iff.mp ?_
    revert i
    decide +kernel
  · have hseven := hagree 7
    revert hseven
    decide +kernel

end PulseLink
