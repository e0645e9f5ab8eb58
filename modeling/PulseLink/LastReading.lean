import PulseLink.TableTraffic

/-! The last reading of a device. `dt_record_sensor` stores its arguments one atomic at a time, so what a
device holds in the end is, field by field, what the last store to that field stored; the fields of two
overlapping calls can mix. -/

namespace PulseLink

/-- The four fields of the last reading. -/
def Device.lastReading (d : Device) : SensorArgs := ⟨d.lastSeq, d.lastTemp, d.lastHumid, d.lastSeen⟩

def DevAtomic.seq? : DevAtomic → Option UInt32
  | .storeSeq v => some v
  | _ => none

def DevAtomic.temp? : DevAtomic → Option Int32
  | .storeTemp v => some v
  | _ => none

def DevAtomic.humid? : DevAtomic → Option Int32
  | .storeHumid v => some v
  | _ => none

def DevAtomic.seen? : DevAtomic → Option Int
  | .storeSeen v => some v
  | _ => none

/-- The value the last of the stores that `f` picks stored. -/
def lastOf {α : Type} (f : DevAtomic → Option α) (stores : List DevAtomic) : Option α :=
  (stores.filterMap f).getLast?

/-- The last stores to the four fields stored the arguments `r`. -/
def StoredLast (stores : List DevAtomic) (r : SensorArgs) : Prop :=
  lastOf DevAtomic.seq? stores = some r.seq ∧ lastOf DevAtomic.temp? stores = some r.temp ∧
    lastOf DevAtomic.humid? stores = some r.humid ∧ lastOf DevAtomic.seen? stores = some r.now

theorem lastOf_append {α : Type} (f : DevAtomic → Option α) (stores more : List DevAtomic) :
    lastOf f (stores ++ more) = (lastOf f more).or (lastOf f stores) := by
  rw [lastOf, List.filterMap_append, List.getLast?_append]
  rfl

theorem lastOf_singleton {α : Type} (f : DevAtomic → Option α) (a : DevAtomic) : lastOf f [a] = f a := by
  cases h : f a <;> simp [lastOf, h]

/-- The device after the stores, from `d` on. -/
def Device.afterStores (d : Device) (stores : List DevAtomic) : Device :=
  stores.foldl (fun d a => a.apply d) d

theorem afterStores_append (d : Device) (stores more : List DevAtomic) :
    d.afterStores (stores ++ more) = (d.afterStores stores).afterStores more :=
  List.foldl_append

/-- Field by field, the last store counts. -/
theorem lastReading_afterStores (d : Device) (stores : List DevAtomic) :
    (d.afterStores stores).lastReading =
      { seq := (lastOf DevAtomic.seq? stores).getD d.lastSeq
        temp := (lastOf DevAtomic.temp? stores).getD d.lastTemp
        humid := (lastOf DevAtomic.humid? stores).getD d.lastHumid
        now := (lastOf DevAtomic.seen? stores).getD d.lastSeen } := by
  induction stores using List.reverseRecOn with
  | nil => rfl
  | append_singleton stores a ih =>
      have hnext : (d.afterStores (stores ++ [a])).lastReading = (a.apply (d.afterStores stores)).lastReading :=
        congrArg Device.lastReading (afterStores_append d stores [a])
      simp only [Device.lastReading, SensorArgs.mk.injEq] at ih
      obtain ⟨hseq, htemp, hhumid, hseen⟩ := ih
      simp only [hnext, lastOf_append, lastOf_singleton]
      cases a <;>
        simp [DevAtomic.apply, Device.lastReading, DevAtomic.seq?, DevAtomic.temp?, DevAtomic.humid?,
          DevAtomic.seen?, hseq, htemp, hhumid, hseen]

/-! ### The calls -/

/-- The stores of `dt_record_sensor`, in order. -/
def recordStores (r : SensorArgs) : List DevAtomic :=
  [.storeSeq r.seq, .storeTemp r.temp, .storeHumid r.humid, .storeSeen r.now, .storeState .online, .addOk]

/-- What a call of `dt_record_sensor` performs. -/
def recordEvents (p : Nat) (r : SensorArgs) : List (Event TrafficSig) :=
  (recordStores r).map fun a => ⟨.server (.device p a), ()⟩

theorem recordSensor_path {p : Nat} {r : SensorArgs} {t : List (Event TrafficSig)}
    (hpath : (TrafficCall.recordSensor p r).proc.Path t ()) : t = recordEvents p r := by
  obtain ⟨_, t₁, rfl, h1⟩ := Proc.path_op_iff.mp hpath
  obtain ⟨_, t₂, rfl, h2⟩ := Proc.path_op_iff.mp h1
  obtain ⟨_, t₃, rfl, h3⟩ := Proc.path_op_iff.mp h2
  obtain ⟨_, t₄, rfl, h4⟩ := Proc.path_op_iff.mp h3
  obtain ⟨_, t₅, rfl, h5⟩ := Proc.path_op_iff.mp h4
  obtain ⟨_, t₆, rfl, h6⟩ := Proc.path_op_iff.mp h5
  obtain ⟨rfl, -⟩ := Proc.path_ret_iff.mp h6
  rfl

section Calls

variable {ι : Type} [DecidableEq ι]

/-- The stores on the device at `p` in a log, in order. -/
def storesOn (p : Nat) (log : List (ι × Event TrafficSig)) : List DevAtomic :=
  log.filterMap fun entry => storeOn p entry.2

/-- A device holds what the stores of the log made of it. -/
theorem device_run {calls : ι → List TrafficCall} {conns : ι → Conn} {ctx : ServerCtx} {p : Nat} {d : Device}
    (hd : ctx.devices.heap[p]? = some d) (schedule : List ι) :
    (trafficPool calls conns ctx schedule).shared.devices.heap[p]? =
      some (d.afterStores (storesOn p (trafficPool calls conns ctx schedule).log)) := by
  refine Pool.shared_invariant trafficThread trafficHandler
    (fun log s => s.devices.heap[p]? = some (d.afterStores (storesOn p log))) ?_ hd schedule
  intro log s i o conn hlog
  have hafter := afterStores_append d (storesOn p log)
    (storeOn p ⟨o, (trafficHandler o (conn, s)).1⟩).toList
  have hstores : storesOn p (log ++ [(i, ⟨o, (trafficHandler o (conn, s)).1⟩)]) =
      storesOn p log ++ (storeOn p ⟨o, (trafficHandler o (conn, s)).1⟩).toList := by
    rw [storesOn, List.filterMap_append]
    cases h : storeOn p ⟨o, (trafficHandler o (conn, s)).1⟩ <;> simp [h, storesOn]
  rw [device_step hlog, hstores, hafter]
  cases storeOn p ⟨o, (trafficHandler o (conn, s)).1⟩ <;> rfl

/-- Any number of workers that record readings on the device at `p`. -/
def recorders (p : Nat) (readings : ι → List SensorArgs) (i : ι) : List TrafficCall :=
  (readings i).map (.recordSensor p)

/-- No two calls overlap: the log is made of whole calls, one after the other. -/
def OneByOne (p : Nat) (log : List (ι × Event TrafficSig)) : Prop :=
  ∃ order : List (ι × SensorArgs), log = order.flatMap fun c =>
    (⟨.called (.recordSensor p c.2), ()⟩ :: recordEvents p c.2).map (Prod.mk c.1)

variable {p : Nat} {readings : ι → List SensorArgs} {conns : ι → Conn} {ctx : ServerCtx} {schedule : List ι}

/-- A finished worker has stored every one of its readings. -/
theorem recorded {i : ι} {r : SensorArgs} (hr : r ∈ readings i)
    (hdone : ((trafficPool (recorders p readings) conns ctx schedule).threads i).finished = true)
    {a : DevAtomic} (ha : a ∈ recordStores r) :
    a ∈ storesOn p (trafficPool (recorders p readings) conns ctx schedule).log := by
  obtain ⟨result, hresult⟩ := Thread.finished_iff.mp hdone
  obtain ⟨t', hproc, hsub⟩ := call_made (Pool.thread_path hresult) (List.mem_map_of_mem (f := _) hr)
  rw [recordSensor_path hproc] at hsub
  have hmem := Pool.mem_eventsOf.mp (hsub (List.mem_map_of_mem (f := fun a => (⟨.server (.device p a), ()⟩ :
    Event TrafficSig)) ha))
  refine List.mem_filterMap.mpr ⟨_, hmem, ?_⟩
  simp [storeOn]

theorem lastOf_isSome {α : Type} {f : DevAtomic → Option α} {stores : List DevAtomic} {a : DevAtomic} {v : α}
    (ha : a ∈ stores) (hv : f a = some v) : ∃ w, lastOf f stores = some w := by
  have hmem : v ∈ stores.filterMap f := List.mem_filterMap.mpr ⟨a, ha, hv⟩
  exact ⟨_, List.getLast?_eq_getLast_of_ne_nil (List.ne_nil_of_mem hmem)⟩

/-- Once every worker is through, with at least one reading recorded, each of the four fields has been
stored. -/
theorem all_stored {i : ι} {r : SensorArgs} (hr : r ∈ readings i)
    (hdone : ((trafficPool (recorders p readings) conns ctx schedule).threads i).finished = true) :
    ∃ last, StoredLast (storesOn p (trafficPool (recorders p readings) conns ctx schedule).log) last := by
  obtain ⟨seq, hseq⟩ := lastOf_isSome (f := DevAtomic.seq?) (a := .storeSeq r.seq)
    (recorded hr hdone (by simp [recordStores])) rfl
  obtain ⟨temp, htemp⟩ := lastOf_isSome (f := DevAtomic.temp?) (a := .storeTemp r.temp)
    (recorded hr hdone (by simp [recordStores])) rfl
  obtain ⟨humid, hhumid⟩ := lastOf_isSome (f := DevAtomic.humid?) (a := .storeHumid r.humid)
    (recorded hr hdone (by simp [recordStores])) rfl
  obtain ⟨now, hnow⟩ := lastOf_isSome (f := DevAtomic.seen?) (a := .storeSeen r.now)
    (recorded hr hdone (by simp [recordStores])) rfl
  exact ⟨⟨seq, temp, humid, now⟩, hseq, htemp, hhumid, hnow⟩

theorem StoredLast.unique {stores : List DevAtomic} {r r' : SensorArgs} (h : StoredLast stores r)
    (h' : StoredLast stores r') : r = r' := by
  obtain ⟨hseq, htemp, hhumid, hnow⟩ := h
  obtain ⟨hseq', htemp', hhumid', hnow'⟩ := h'
  have e1 := Option.some.inj (hseq.symm.trans hseq')
  have e2 := Option.some.inj (htemp.symm.trans htemp')
  have e3 := Option.some.inj (hhumid.symm.trans hhumid')
  have e4 := Option.some.inj (hnow.symm.trans hnow')
  cases r
  cases r'
  simp only at e1 e2 e3 e4
  rw [e1, e2, e3, e4]

theorem StoredLast.lastReading {stores : List DevAtomic} {r : SensorArgs} (h : StoredLast stores r)
    (d : Device) : (d.afterStores stores).lastReading = r := by
  obtain ⟨hseq, htemp, hhumid, hnow⟩ := h
  rw [lastReading_afterStores, hseq, htemp, hhumid, hnow]
  rfl

omit [DecidableEq ι] in
/-- The call that comes last in a log without overlaps stores last. -/
theorem storedLast_of_oneByOne {log : List (ι × Event TrafficSig)} (hlog : OneByOne p log) (hne : log ≠ []) :
    ∃ i r, (i, ⟨.called (.recordSensor p r), ()⟩) ∈ log ∧ StoredLast (storesOn p log) r := by
  obtain ⟨order, rfl⟩ := hlog
  rcases List.eq_nil_or_concat order with rfl | ⟨before, ⟨i, r⟩, rfl⟩
  · exact absurd rfl hne
  · rw [List.concat_eq_append, List.flatMap_append, List.flatMap_singleton]
    refine ⟨i, r, by simp, ?_⟩
    generalize (before.flatMap fun c => (⟨.called (.recordSensor p c.2), ()⟩ :: recordEvents p c.2).map
      (Prod.mk c.1)) = log
    have hstores : storesOn p (log ++ (⟨.called (.recordSensor p r), ()⟩ :: recordEvents p r).map (Prod.mk i)) =
        storesOn p log ++ recordStores r := by
      rw [storesOn, List.filterMap_append, storesOn]
      congr 1
      simp [recordEvents, recordStores, storeOn]
    rw [hstores]
    simp only [StoredLast, lastOf_append]
    exact ⟨rfl, rfl, rfl, rfl⟩

/-- **When the last reading is one reading.** After all calls on a device have returned, its four fields
are the arguments of one call if no two of the calls overlapped. In general they are exactly if the last stores to
them are, whoever made them. -/
theorem last_reading_iff (p : Nat) (readings : ι → List SensorArgs) (conns : ι → Conn) (ctx : ServerCtx)
    (schedule : List ι) (hdevice : p < ctx.devices.heap.length) (hsome : ∃ i, readings i ≠ []) :
    let pool := trafficPool (recorders p readings) conns ctx schedule
    (∀ i, (pool.threads i).finished = true) →
    ∃ d : Device, pool.shared.devices.heap[p]? = some d ∧
      ((∃ i, d.lastReading ∈ readings i) ↔ ∃ i, ∃ r ∈ readings i, StoredLast (storesOn p pool.log) r) ∧
      (OneByOne p pool.log → ∃ i, d.lastReading ∈ readings i) := by
  intro pool hdone
  obtain ⟨i, hi⟩ := hsome
  obtain ⟨r, hr⟩ := List.exists_mem_of_ne_nil _ hi
  obtain ⟨last, hlast⟩ := all_stored hr (hdone i)
  have hd : ctx.devices.heap[p]? = some (ctx.devices.heap.get ⟨p, hdevice⟩) :=
    List.getElem?_eq_getElem hdevice
  refine ⟨_, device_run hd schedule, ?_, ?_⟩
  · rw [hlast.lastReading]
    constructor
    · rintro ⟨j, hj⟩
      exact ⟨j, last, hj, hlast⟩
    · rintro ⟨j, r', hr', hstored⟩
      rw [hlast.unique hstored]
      exact ⟨j, hr'⟩
  · intro hserial
    have hne : pool.log ≠ [] := by
      intro hnil
      have hstored := recorded hr (hdone i) (a := .addOk) (by simp [recordStores])
      rw [show (trafficPool (recorders p readings) conns ctx schedule).log = [] from hnil] at hstored
      cases hstored
    obtain ⟨j, r', hcalled, hstored⟩ := storedLast_of_oneByOne hserial hne
    have hcall : TrafficCall.recordSensor p r' ∈ recorders p readings j := called_mem hcalled
    obtain ⟨r'', hr'', heq⟩ := List.mem_map.mp hcall
    cases heq
    rw [hstored.lastReading]
    exact ⟨j, hr''⟩

end Calls

/-- Two workers with one reading each. -/
def twoReadings : Bool → List SensorArgs
  | true => [⟨1, 2100, 4000, 10⟩]
  | false => [⟨2, 2200, 5000, 11⟩]

/-- One worker after the other. -/
theorem last_reading_iff_inTurn :
    let pool := trafficPool (recorders 0 twoReadings) (fun _ => scripted []) oneDevice
      (List.replicate 9 true ++ List.replicate 9 false)
    ∃ d : Device, pool.shared.devices.heap[0]? = some d ∧ ∃ i, d.lastReading ∈ twoReadings i := by
  intro pool
  have hdone : ∀ i, (pool.threads i).finished = true := by decide +kernel
  obtain ⟨d, hd, -, hserial⟩ := last_reading_iff 0 twoReadings (fun _ => scripted []) oneDevice
    (List.replicate 9 true ++ List.replicate 9 false) (by decide) ⟨true, by decide⟩ hdone
  exact ⟨d, hd, hserial ⟨[(true, ⟨1, 2100, 4000, 10⟩), (false, ⟨2, 2200, 5000, 11⟩)], rfl⟩⟩

/-- The second call runs between the first two stores of the first: the sequence number is that of one
reading, the rest that of the other. -/
theorem last_reading_mixed :
    let pool := trafficPool (recorders 0 twoReadings) (fun _ => scripted []) oneDevice
      ([true, true] ++ List.replicate 9 false ++ List.replicate 7 true)
    (∀ i, (pool.threads i).finished = true) ∧
      (pool.shared.devices.heap[0]?).map Device.lastReading = some ⟨2, 2100, 4000, 10⟩ ∧
      ∀ i, (⟨2, 2100, 4000, 10⟩ : SensorArgs) ∉ twoReadings i := by
  decide +kernel

end PulseLink
