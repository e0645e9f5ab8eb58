import PulseLink.TableInvariant

/-! Any number of threads calling `dt_get_or_create` and `dt_touch`. The lookup under the read lock and the
re-check with insertion under the write lock are the atomic steps, so between a miss and the insertion
that follows it other threads may insert the same id. -/

namespace PulseLink

/-- A call of a thread on the device table. -/
inductive TableCall where
  | getOrCreate (id sessionId : UInt32)
  | touch (id : UInt32) (now : Int)
  deriving DecidableEq, Repr

namespace TableCall

def id : TableCall → UInt32
  | .getOrCreate id _ => id
  | .touch id _ => id

/-- The session a device inserted by the call gets. -/
def sessionId : TableCall → UInt32
  | .getOrCreate _ sessionId => sessionId
  | .touch _ _ => 0

def proc : TableCall → ServerProc Unit
  | .getOrCreate id sessionId => do
      let _ ← dtGetOrCreate id sessionId
      return ()
  | .touch id now => dtTouch id now

end TableCall

/-- A thread that makes its calls one after the other. -/
def tableThread : Loop ServerSig (List TableCall) Unit
  | [] => return .inr ()
  | call :: rest => do
      call.proc
      return .inl rest

/-! ### What one call performs -/

/-- What the events of a call for `id` with `sid` say: it inserts nothing else, and what it returns has
its grounds. -/
def CallEvents (id sid : UInt32) (t : List (Event ServerSig)) : Prop :=
  ∀ e ∈ t, (∀ id' sid', e.op = .insert id' sid' → id' = id ∧ sid' = sid) ∧
    ∀ id' dev, e.op = .returned id' dev → Grounds t id' dev

/-- An operation on a device, as `dt_touch` performs after its lookup. -/
def OnDevice : ServerOp → Prop
  | .device _ _ => True
  | _ => False

theorem CallEvents.append {id sid : UInt32} {t t' : List (Event ServerSig)} (ht : CallEvents id sid t)
    (ht' : ∀ e ∈ t', OnDevice e.op) : CallEvents id sid (t ++ t') := by
  intro e he
  rcases List.mem_append.mp he with hold | hnew
  · refine ⟨(ht e hold).1, ?_⟩
    intro id' dev hop
    exact ((ht e hold).2 id' dev hop).mono (List.subset_append_left _ _)
  · have hdevice := ht' e hnew
    constructor
    · intro id' sid' hop
      rw [hop] at hdevice
      exact hdevice.elim
    · intro id' dev hop
      rw [hop] at hdevice
      exact hdevice.elim

/-- The operations `dt_get_or_create` can perform, as far as it got. -/
theorem dtGetOrCreate_reach {id sid : UInt32} {t : List (Event ServerSig)} {q : ServerProc (Option Nat)}
    (hreach : (dtGetOrCreate id sid).Reach t q) : CallEvents id sid t := by
  rw [dtGetOrCreate, reach_ask_iff] at hreach
  rcases hreach with ⟨rfl, -⟩ | ⟨hit, t, rfl, hreach⟩
  · simp [CallEvents]
  cases hit with
  | some p =>
      rcases reach_ask_iff.mp hreach with ⟨rfl, -⟩ | ⟨_, t, rfl, hlast⟩
      · simp [CallEvents]
      · obtain ⟨rfl, -⟩ := Proc.reach_ret_iff.mp hlast
        simp [CallEvents, Grounds, named]
  | none =>
      rcases reach_ask_iff.mp hreach with ⟨rfl, -⟩ | ⟨r, t, rfl, hinserted⟩
      · simp [CallEvents]
      · rcases reach_ask_iff.mp hinserted with ⟨rfl, -⟩ | ⟨_, t, rfl, hlast⟩
        · simp [CallEvents]
        · obtain ⟨rfl, -⟩ := Proc.reach_ret_iff.mp hlast
          cases r <;> simp [CallEvents, Grounds, named, Insertion.device]

theorem tableCall_reach {call : TableCall} {t : List (Event ServerSig)} {q : ServerProc Unit}
    (hreach : call.proc.Reach t q) : CallEvents call.id call.sessionId t := by
  cases call with
  | getOrCreate id sid =>
      rcases hreach.bind_cases with ⟨p', hp'⟩ | ⟨t₁, dev, t₂, rfl, hcall, hrest⟩
      · exact dtGetOrCreate_reach hp'
      · obtain ⟨rfl, -⟩ := Proc.reach_ret_iff.mp hrest
        exact (dtGetOrCreate_reach hcall.reach).append (by simp)
  | touch id now =>
      rcases hreach.bind_cases with ⟨p', hp'⟩ | ⟨t₁, dev, t₂, rfl, hcall, hrest⟩
      · exact dtGetOrCreate_reach hp'
      · refine (dtGetOrCreate_reach hcall.reach).append ?_
        cases dev with
        | none =>
            obtain ⟨rfl, -⟩ := Proc.reach_ret_iff.mp hrest
            simp
        | some p =>
            refine Proc.Uses.reach (P := OnDevice) ?_ hrest
            exact ⟨trivial, fun _ => ⟨trivial, fun _ => trivial⟩⟩

/-- The operations of a turn are those of the call it makes. -/
theorem tableThread_reach {calls : List TableCall} {t : List (Event ServerSig)}
    {q : ServerProc (List TableCall ⊕ Unit)} (hreach : (tableThread calls).Reach t q) {e : Event ServerSig}
    (he : e ∈ t) : ∃ call ∈ calls, CallEvents call.id call.sessionId t := by
  cases calls with
  | nil =>
      obtain ⟨rfl, -⟩ := Proc.reach_ret_iff.mp hreach
      cases he
  | cons call rest =>
      refine ⟨call, List.mem_cons_self, ?_⟩
      rcases hreach.bind_cases with ⟨p', hp'⟩ | ⟨t₁, _, t₂, rfl, hcall, hrest⟩
      · exact tableCall_reach hp'
      · obtain ⟨rfl, -⟩ := Proc.reach_ret_iff.mp hrest
        exact (tableCall_reach hcall.reach).append (by simp)

/-- A turn leaves the later calls to be made. -/
theorem tableThread_next {calls rest : List TableCall} {t : List (Event ServerSig)}
    (hpath : (tableThread calls).Path t (.inl rest)) : rest <:+ calls := by
  cases calls with
  | nil => cases hpath
  | cons call calls =>
      obtain ⟨t₁, _, t₂, -, -, hret⟩ := Proc.path_bind_iff.mp hpath
      obtain ⟨-, hrest⟩ := Proc.path_ret_iff.mp hret
      cases hrest
      exact List.suffix_cons _ _

/-! ### Every interleaving -/

section Interleaving

variable {ι : Type} [DecidableEq ι] (calls : ι → List TableCall) (conns : ι → Conn) (ctx : ServerCtx)

/-- The threads after the given schedule. -/
def tablePool (schedule : List ι) : Pool ServerSig ι (List TableCall) Unit Conn ServerCtx :=
  Pool.run tableThread serverHandler (Pool.start tableThread calls conns ctx) schedule

theorem tablePool_append (schedule later : List ι) :
    tablePool calls conns ctx (schedule ++ later) =
      Pool.run tableThread serverHandler (tablePool calls conns ctx schedule) later :=
  Pool.run_append _ _ _ _ _

variable {calls conns ctx}

theorem tablePool_tableLog (hinit : ctx.devices = dtInit)
    (hcallocs : ∀ ok ∈ ctx.choices.callocs, ok = true) (schedule : List ι) :
    TableLog (tablePool calls conns ctx schedule).log (tablePool calls conns ctx schedule).shared := by
  refine Pool.shared_invariant tableThread serverHandler TableLog ?_ ?_ schedule
  · intro log s i o conn hlog
    exact hlog.step i o conn
  · refine ⟨?_, hcallocs, by simp [Pool.start], by simp [Pool.start]⟩
    rw [Pool.start, hinit]
    exact DeviceTable.wellFormed_init

theorem tablePool_insertedIn (hinit : ctx.devices = dtInit) (schedule : List ι) :
    InsertedIn (tablePool calls conns ctx schedule).log (tablePool calls conns ctx schedule).shared := by
  refine Pool.shared_invariant tableThread serverHandler InsertedIn ?_ ?_ schedule
  · intro log s i o conn hlog
    exact hlog.step i o conn
  · intro p d hd
    simp only [Pool.start, hinit, dtInit, List.getElem?_nil] at hd
    cases hd

/-- Later tables extend earlier ones. -/
theorem tablePool_extends (schedule later : List ι) :
    (tablePool calls conns ctx schedule).shared.devices.Extends
      (tablePool calls conns ctx (schedule ++ later)).shared.devices := by
  rw [tablePool_append]
  refine Pool.shared_invariant tableThread serverHandler
    (fun _ s => (tablePool calls conns ctx schedule).shared.devices.Extends s.devices) ?_
    (DeviceTable.extends_refl _) later
  intro log s i o conn h
  exact h.trans (extends_step o conn s)

/-- Every event of a thread belongs to one of its calls. -/
theorem tablePool_call {schedule : List ι} {i : ι} {e : Event ServerSig}
    (he : (i, e) ∈ (tablePool calls conns ctx schedule).log) :
    ∃ call ∈ calls i, ∃ t, e ∈ t ∧ CallEvents call.id call.sessionId t ∧
      ∀ e' ∈ t, (i, e') ∈ (tablePool calls conns ctx schedule).log := by
  obtain ⟨turn, s, q, hs, hreach, hmem, hturn⟩ :=
    Pool.turn_of_mem (P := fun i s => s <:+ calls i)
      (fun i s t s' hs hpath => (tableThread_next hpath).trans hs) (fun i => List.suffix_refl _) he
  obtain ⟨call, hcall, hevents⟩ := tableThread_reach hreach hmem
  exact ⟨call, hs.subset hcall, turn, hmem, hevents, hturn⟩

/-- What a completed call returned is what the table now holds for its id. -/
theorem tablePool_returned (hinit : ctx.devices = dtInit)
    (hcallocs : ∀ ok ∈ ctx.choices.callocs, ok = true) {schedule : List ι} {i : ι} {id : UInt32}
    {dev : Option Nat} (he : (i, ⟨.returned id dev, ()⟩) ∈ (tablePool calls conns ctx schedule).log) :
    ∃ p, dev = some p ∧ (tablePool calls conns ctx schedule).shared.devices.lookup id = some p := by
  have hlog : TableLog (tablePool calls conns ctx schedule).log _ :=
    tablePool_tableLog hinit hcallocs schedule
  obtain ⟨call, -, t, hmem, hevents, ht⟩ := tablePool_call he
  have hgrounds := (hevents _ hmem).2 id dev rfl
  cases dev with
  | none =>
      obtain ⟨sid, hsid⟩ := hgrounds
      exact absurd rfl (hlog.memory _ (ht _ hsid) id sid)
  | some p =>
      obtain ⟨e, he, hnamed⟩ := hgrounds
      exact ⟨p, rfl, hlog.told _ (ht e he) id p hnamed⟩

/-- Under any interleaving of calls on an empty table, with allocation succeeding: the ids in the chains
are distinct, each in the bucket of its hash, and counted; nothing is removed and no id or session changes;
all completed calls for an id return one device, whose session is that of the call that inserted it. -/
theorem table_any_interleaving (hinit : ctx.devices = dtInit)
    (hcallocs : ∀ ok ∈ ctx.choices.callocs, ok = true) (schedule later : List ι) :
    let pool := tablePool calls conns ctx schedule
    let t := pool.shared.devices
    (t.chained.map t.idAt).Nodup ∧
    (∀ b, ∀ p ∈ t.buckets b, ∃ d : Device, t.heap[p]? = some d ∧ dtHash d.id = b) ∧
    t.deviceCount.toNat = t.chained.length % 2 ^ 32 ∧
    t.Extends (tablePool calls conns ctx (schedule ++ later)).shared.devices ∧
    (∀ i j id dev dev', (i, ⟨.returned id dev, ()⟩) ∈ pool.log → (j, ⟨.returned id dev', ()⟩) ∈ pool.log →
      dev = dev') ∧
    ∀ i id dev, (i, ⟨.returned id dev, ()⟩) ∈ pool.log →
      ∃ (p : Nat) (d : Device), dev = some p ∧ t.heap[p]? = some d ∧ d.id = id ∧
        ∃ j, (j, ⟨.insert id d.sessionId, .inserted p⟩) ∈ pool.log ∧
          ∃ call ∈ calls j, call.id = id ∧ call.sessionId = d.sessionId := by
  intro pool t
  have hlog : TableLog pool.log pool.shared := tablePool_tableLog hinit hcallocs schedule
  refine ⟨hlog.wellFormed.unique, hlog.wellFormed.bucket, hlog.wellFormed.count,
    tablePool_extends schedule later, ?_, ?_⟩
  · intro i j id dev dev' he he'
    obtain ⟨p, rfl, hp⟩ := tablePool_returned hinit hcallocs he
    obtain ⟨p', rfl, hp'⟩ := tablePool_returned hinit hcallocs he'
    exact hp.symm.trans hp'
  · intro i id dev he
    obtain ⟨p, rfl, hp⟩ := tablePool_returned hinit hcallocs he
    obtain ⟨hmem, hid⟩ := DeviceTable.lookup_some hp
    obtain ⟨d, hd, -⟩ := hlog.wellFormed.bucket _ p hmem
    rw [DeviceTable.idAt, hd, Option.map_some, Option.some.injEq] at hid
    subst hid
    obtain ⟨j, hj⟩ := tablePool_insertedIn hinit schedule p d hd
    obtain ⟨call, hcall, t', hmem', hevents, -⟩ := tablePool_call hj
    obtain ⟨hid, hsid⟩ := (hevents _ hmem').1 _ _ rfl
    exact ⟨p, d, rfl, hd, rfl, j, hj, call, hcall, hid.symm, hsid.symm⟩

end Interleaving

/-- Two threads register the same device. -/
def rivals : Bool → List TableCall
  | false => [.getOrCreate 7 1]
  | true => [.getOrCreate 7 2, .touch 7 5]

/-- Both lookups miss before either thread inserts. -/
def race : Pool ServerSig Bool (List TableCall) Unit Conn ServerCtx :=
  tablePool rivals (fun _ => scripted []) freshServer [false, true, true, false, false, true]

theorem race_log : race.log =
    [(false, ⟨.find 7, none⟩), (true, ⟨.find 7, none⟩), (true, ⟨.insert 7 2, .inserted 0⟩),
      (false, ⟨.insert 7 1, .found 0⟩), (false, ⟨.returned 7 (some 0), ()⟩),
      (true, ⟨.returned 7 (some 0), ()⟩)] := rfl

theorem table_any_interleaving_race :
    (false, ⟨.returned 7 (some 0), ()⟩) ∈ race.log ∧ (true, ⟨.returned 7 (some 0), ()⟩) ∈ race.log ∧
    ∃ (p : Nat) (d : Device), some 0 = some p ∧ race.shared.devices.heap[p]? = some d ∧ d.id = 7 ∧
      ∃ j, (j, ⟨.insert 7 d.sessionId, .inserted p⟩) ∈ race.log ∧
        ∃ call ∈ rivals j, call.id = 7 ∧ call.sessionId = d.sessionId := by
  have hfirst : (false, ⟨.returned 7 (some 0), ()⟩) ∈ race.log := by simp [race_log]
  have hsecond : (true, ⟨.returned 7 (some 0), ()⟩) ∈ race.log := by simp [race_log]
  have hcallocs : ∀ ok ∈ freshServer.choices.callocs, ok = true := by simp [freshServer]
  obtain ⟨-, -, -, -, -, hreturned⟩ :=
    @table_any_interleaving Bool _ rivals (fun _ => scripted []) freshServer rfl hcallocs
      [false, true, true, false, false, true] []
  exact ⟨hfirst, hsecond, hreturned false 7 (some 0) hfirst⟩

end PulseLink
