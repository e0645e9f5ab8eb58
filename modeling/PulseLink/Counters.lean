import PulseLink.Session
import PulseLink.Workers

/-! The two counters of a device under any interleaving of workers: each is what it was at the start plus the
number of additions performed on the device, and so the sum of what the workers added to it. -/

namespace PulseLink

namespace Counter

variable (k : Counter)

/-- The counter of the device a table holds for an id; 0 if there is none. -/
def valueOf (t : DeviceTable) (id : UInt32) : UInt64 := (t.get id).elim 0 k.read

variable {k} {t : DeviceTable}

theorem valueOf_atomic (p : Nat) (a : DevAtomic) (id : UInt32) :
    k.valueOf (t.atomic p a) id =
      if a = k.add ∧ t.lookup id = some p then k.valueOf t id + 1 else k.valueOf t id := by
  cases hlookup : t.lookup id with
  | none => simp [valueOf, DeviceTable.get, hlookup]
  | some q =>
      obtain ⟨d, hd⟩ := DeviceTable.get_isSome hlookup
      have hheap : t.heap[q]? = some d := by
        rw [DeviceTable.get, hlookup] at hd
        exact hd
      have hget : (t.atomic p a).get id = some (if p = q then a.apply d else d) := by
        rw [DeviceTable.get, DeviceTable.atomic_lookup, hlookup]
        show (t.atomic p a).heap[q]? = _
        rw [DeviceTable.atomic_heap, hheap]
        split_ifs <;> rfl
      rw [valueOf, valueOf, hget, hd, Option.elim_some, Option.elim_some]
      by_cases hpq : p = q
      · subst hpq
        rw [if_pos rfl, k.read_apply]
        simp only [and_true]
      · rw [if_neg hpq, if_neg fun h => hpq (Option.some.inj h.2).symm]

theorem valueOf_insert_self (id sessionId : UInt32) (now : Int) :
    k.valueOf (t.insert id sessionId now) id = 0 := by
  rw [valueOf, DeviceTable.get_insert]
  exact k.read_newDevice id sessionId now

theorem valueOf_insert_ne (hwf : t.WellFormed) {id id' : UInt32} (hne : id ≠ id') (sessionId : UInt32)
    (now : Int) : k.valueOf (t.insert id sessionId now) id' = k.valueOf t id' := by
  rw [valueOf, valueOf, DeviceTable.get, DeviceTable.get, hwf.insert_lookup_ne hne]
  cases hlookup : t.lookup id' with
  | none => rfl
  | some q =>
      have hlt := hwf.lt_length (DeviceTable.lookup_some hlookup).1
      exact congrArg (fun d : Option Device => d.elim 0 k.read) (DeviceTable.insert_heap hlt)

variable (k) in
/-- How often the device a table holds for an id was added to. -/
def added (dev : Option Nat) (t : List (Event ServerSig)) : Nat := dev.elim 0 (k.addsOf t).count

theorem added_concat {dev : Option Nat} {t t' : List (Event ServerSig)} {p : Nat}
    (ht' : k.addsOf t' = k.addsOf t ++ [p]) :
    k.added dev t' = if dev = some p then k.added dev t + 1 else k.added dev t := by
  rw [added, added, ht']
  cases dev with
  | none => rfl
  | some q =>
      by_cases hq : q = p
      · subst hq
        simp
      · simp [hq, Ne.symm hq]

end Counter

/-! ### The counters and the log -/

variable {ι : Type} {k : Counter} {start : DeviceTable} {log : ServerLog ι} {ctx : ServerCtx}

variable (k) in
theorem addsOf_concat (log : ServerLog ι) (i : ι) (e : Event ServerSig) :
    k.addsOf (events (log ++ [(i, e)])) = k.addsOf (events log) ++ (k.addOf e).toList := by
  rw [events_append, Counter.addsOf_append]
  cases he : k.addOf e with
  | none => simp [events, Counter.addsOf, he]
  | some p => simp [events, Counter.addsOf, he]

/-- The counter of every device is what it was at the start plus what the log added to it. -/
structure Counted (k : Counter) (start : DeviceTable) (log : ServerLog ι) (ctx : ServerCtx) : Prop where
  table : TableLog log ctx
  range : ∀ p ∈ k.addsOf (events log), p < ctx.devices.heap.length
  count : ∀ id, k.valueOf ctx.devices id =
    k.valueOf start id + UInt64.ofNat (k.added (ctx.devices.lookup id) (events log))

/-- A device that has been named is in the table. -/
theorem TableLog.lt_length (hlog : TableLog log ctx) [DecidableEq ι] {i : ι} {id : UInt32} {p : Nat}
    (hgrounds : Grounds (Pool.eventsOf log i) id (some p)) : p < ctx.devices.heap.length := by
  obtain ⟨e, he, hnamed⟩ := hgrounds
  have hlookup := hlog.told _ (Pool.mem_eventsOf.mp he) id p hnamed
  exact hlog.wellFormed.lt_length (DeviceTable.lookup_some hlookup).1

theorem ofNat_succ_add (a : UInt64) (n : Nat) : a + UInt64.ofNat (n + 1) = a + UInt64.ofNat n + 1 := by
  rw [UInt64.ofNat_add, ← add_assoc]
  rfl

/-- An operation that adds to no counter of this kind: it leaves the table, stores into a device, or adds to
another counter. -/
theorem Counted.keep (hcounted : Counted k start log ctx) {i : ι} {e : Event ServerSig} {ctx' : ServerCtx}
    (htable : TableLog (log ++ [(i, e)]) ctx') (he : k.addOf e = none)
    (hlength : ctx'.devices.heap.length = ctx.devices.heap.length)
    (hlookup : ∀ id, ctx'.devices.lookup id = ctx.devices.lookup id)
    (hvalue : ∀ id, k.valueOf ctx'.devices id = k.valueOf ctx.devices id) :
    Counted k start (log ++ [(i, e)]) ctx' := by
  have hadds : k.addsOf (events (log ++ [(i, e)])) = k.addsOf (events log) := by
    rw [addsOf_concat, he]
    exact List.append_nil _
  refine ⟨htable, ?_, fun id => ?_⟩
  · rw [hadds, hlength]
    exact hcounted.range
  · rw [Counter.added, hadds, hlookup, hvalue]
    exact hcounted.count id

/-- A new device has no additions yet. -/
theorem Counted.insert (hcounted : Counted k start log ctx) {i : ι} {e : Event ServerSig} {ctx' : ServerCtx}
    (htable : TableLog (log ++ [(i, e)]) ctx') (he : k.addOf e = none) {id sid : UInt32} {now : Int}
    (hnone : ctx.devices.lookup id = none) (hinsert : ctx'.devices = ctx.devices.insert id sid now) :
    Counted k start (log ++ [(i, e)]) ctx' := by
  have hwf := hcounted.table.wellFormed
  have hadds : k.addsOf (events (log ++ [(i, e)])) = k.addsOf (events log) := by
    rw [addsOf_concat, he]
    exact List.append_nil _
  have hlength : (ctx.devices.insert id sid now).heap.length = ctx.devices.heap.length + 1 := by
    simp [DeviceTable.insert]
  refine ⟨htable, ?_, fun id' => ?_⟩
  · rw [hadds, hinsert, hlength]
    exact fun q hq => Nat.lt_succ_of_lt (hcounted.range q hq)
  · have hcount := hcounted.count id'
    rw [hinsert]
    by_cases hid : id = id'
    · subst hid
      have hfresh : (k.addsOf (events log)).count ctx.devices.heap.length = 0 := by
        rw [List.count_eq_zero]
        intro hmem
        exact absurd (hcounted.range _ hmem) (lt_irrefl _)
      rw [hnone] at hcount
      rw [Counter.valueOf_insert_self, DeviceTable.insert_lookup, Counter.added, hadds, Option.elim_some, hfresh,
        ← show k.valueOf ctx.devices id = 0 by simp [Counter.valueOf, DeviceTable.get, hnone]]
      exact hcount
    · rw [Counter.valueOf_insert_ne hwf hid, hwf.insert_lookup_ne hid, Counter.added, hadds]
      exact hcount

theorem Counted.step [DecidableEq ι] (hcounted : Counted k start log ctx) {i : ι} {o : ServerOp} (conn : Conn)
    (hknown : Known (Pool.eventsOf log i) o) :
    Counted k start (log ++ [(i, answer o conn ctx)]) (ctx.after o conn) := by
  have htable := hcounted.table.step i o conn
  rcases devices_step o conn ctx with (⟨hsame, ho⟩ | ⟨p, a, rfl, hatomic⟩) | ⟨id, sid, now, hnone, hans, hinsert⟩
  · refine hcounted.keep htable (Counter.addOf_other (fun p => ho p _) _) ?_ ?_ ?_
    · rw [hsame]
    · intro id
      rw [hsame]
    · intro id
      rw [hsame]
  · have hlength : (ctx.devices.atomic p a).heap.length = ctx.devices.heap.length := List.length_modify _ _ _
    by_cases ha : a = k.add
    · subst ha
      obtain ⟨id, hgrounds⟩ := hknown p k.add rfl
      have hlt := hcounted.table.lt_length hgrounds
      have hadds : k.addsOf (events (log ++ [(i, answer (.device p k.add) conn ctx)])) =
          k.addsOf (events log) ++ [p] := by
        rw [addsOf_concat, Counter.addOf_add]
        rfl
      refine ⟨htable, ?_, fun id' => ?_⟩
      · rw [hadds, hatomic, hlength]
        intro q hq
        rcases List.mem_append.mp hq with hq | hq
        · exact hcounted.range q hq
        · exact (List.mem_singleton.mp hq).symm ▸ hlt
      · rw [hatomic, Counter.valueOf_atomic, DeviceTable.atomic_lookup, hcounted.count id',
          Counter.added_concat hadds]
        by_cases hp : ctx.devices.lookup id' = some p
        · rw [if_pos ⟨rfl, hp⟩, if_pos hp, ofNat_succ_add]
        · rw [if_neg fun h => hp h.2, if_neg hp]
    · refine hcounted.keep htable (Counter.addOf_other ?_ _) ?_ ?_ ?_
      · rintro q hq
        cases hq
        exact ha rfl
      · rw [hatomic, hlength]
      · intro id
        rw [hatomic, DeviceTable.atomic_lookup]
      · intro id
        rw [hatomic, Counter.valueOf_atomic, if_neg fun h => ha h.1]
  · refine hcounted.insert htable ?_ hnone hinsert
    rw [hans]
    rfl

/-! ### Every interleaving -/

variable [DecidableEq ι]

theorem workerPool_counted (k : Counter) {cfg : Config} {payloads : ι → PayloadBuf} {conns : ι → Conn}
    {ctx : ServerCtx} (hwf : ctx.devices.WellFormed) (hcallocs : ∀ ok ∈ ctx.choices.callocs, ok = true)
    (schedule : List ι) :
    Counted k ctx.devices (workerPool cfg payloads conns ctx schedule).log
      (workerPool cfg payloads conns ctx schedule).shared := by
  refine Pool.guarded_invariant (J := Knows) (G := Known) (fun _ t' _ h => h.append t')
    (fun _ _ h => h.uses cfg) (fun _ _ _ _ h => h.next) (fun i => show Knows (.enter (payloads i)) [] from trivial)
    (Counted k ctx.devices) ?_ ?_ schedule
  · intro log s i o conn hknown hcounted
    exact hcounted.step conn hknown
  · refine ⟨⟨hwf, hcallocs, by simp, by simp⟩, by simp [events, Counter.addsOf], ?_⟩
    intro id
    have hnone : k.added (ctx.devices.lookup id) (events ([] : ServerLog ι)) = 0 := by
      rw [Counter.added]
      cases ctx.devices.lookup id <;> rfl
    rw [hnone]
    exact (add_zero _).symm

/-- If every thread added `n` times to the device of the id it had, or had none or `n = 0` and did not add at
all, the additions to the device of an id are those of the threads that had this id. -/
theorem Counted.added_eq_sum [Fintype ι] (hcounted : Counted k start log ctx) (opened : ι → Option UInt32)
    (n : ι → Nat)
    (hadds : ∀ i, ((opened i = none ∨ n i = 0) ∧ k.addsOf (Pool.eventsOf log i) = []) ∨
      ∃ id p, opened i = some id ∧ Grounds (Pool.eventsOf log i) id (some p) ∧
        k.addsOf (Pool.eventsOf log i) = List.replicate (n i) p) (id : UInt32) :
    k.added (ctx.devices.lookup id) (events log) = ∑ i, if opened i = some id then n i else 0 := by
  have hsum : k.added (ctx.devices.lookup id) (events log) =
      ∑ i, k.added (ctx.devices.lookup id) (Pool.eventsOf log i) := by
    refine Pool.measure_eq_sum (F := k.added (ctx.devices.lookup id)) ?_ ?_ log
    · cases ctx.devices.lookup id <;> rfl
    · intro t t'
      cases ctx.devices.lookup id with
      | none => rfl
      | some p => simp [Counter.added, Counter.addsOf_append]
  rw [hsum]
  refine Finset.sum_congr rfl fun i _ => ?_
  rcases hadds i with ⟨hnone, hnil⟩ | ⟨id', p', hopened, ⟨e, he, hnamed⟩, hreplicate⟩
  · have hzero : (if opened i = some id then n i else 0) = 0 := by
      rcases hnone with hnone | hzero
      · rw [hnone, if_neg nofun]
      · rw [hzero, ite_self]
    rw [Counter.added, hnil, hzero]
    cases ctx.devices.lookup id <;> rfl
  · have hlookup := hcounted.table.told _ (Pool.mem_eventsOf.mp he) id' p' hnamed
    rw [Counter.added, hreplicate, hopened]
    by_cases hid : id' = id
    · subst hid
      rw [hlookup, if_pos rfl]
      exact List.count_replicate_self
    · rw [if_neg fun h => hid (Option.some.inj h)]
      cases hp : ctx.devices.lookup id with
      | none => rfl
      | some p =>
          have hne : p' ≠ p := by
            rintro rfl
            have h := (DeviceTable.lookup_some hlookup).2.symm.trans (DeviceTable.lookup_some hp).2
            exact hid (Option.some.inj h)
          show List.count p _ = 0
          rw [List.count_replicate, if_neg (by simpa using hne)]

end PulseLink
