import PulseLink.TableInvariant

/-! Traffic on the device table: any number of threads calling `dt_record_sensor`, `dt_touch` and
`dt_sweep_offline`, one atomic load or store at a time. The sweep adds two operations to those of the
server: walking the chains and loading `last_seen`. It holds the read lock, which keeps insertions out while
it walks; letting them in, as here, only adds interleavings. -/

namespace PulseLink

/-- The arguments of `dt_record_sensor` behind the device. -/
structure SensorArgs where
  seq : UInt32
  temp : Int32
  humid : Int32
  now : Int
  deriving DecidableEq, Repr

/-- A call on the table or on one of its devices. -/
inductive TrafficCall where
  | recordSensor (p : Nat) (r : SensorArgs)
  | touch (id : UInt32) (now : Int)
  | sweep (now timeout : Int)
  deriving DecidableEq, Repr

/-- The time passed to the call. -/
def TrafficCall.now : TrafficCall → Int
  | .recordSensor _ r => r.now
  | .touch _ now => now
  | .sweep now _ => now

/-- The operations of the callers. The last one has no effect: it records that a call begins. -/
inductive TrafficOp where
  | server (o : ServerOp)
  | chains
  | loadSeen (p : Nat)
  | called (c : TrafficCall)
  deriving DecidableEq, Repr

abbrev TrafficOp.Ans : TrafficOp → Type
  | .server o => o.Ans
  | .chains => List Nat
  | .loadSeen _ => Int
  | .called _ => Unit

abbrev TrafficSig : Sig := ⟨TrafficOp, TrafficOp.Ans⟩

abbrev TrafficProc := Proc TrafficSig

abbrev traffic (o : TrafficOp) : TrafficProc o.Ans := Proc.perform (I := TrafficSig) o

theorem path_traffic_iff {α : Type} {o : TrafficOp} {f : o.Ans → TrafficProc α}
    {t : List (Event TrafficSig)} {value : α} :
    (traffic o >>= f).Path t value ↔ ∃ (ans : o.Ans) (t' : _), t = ⟨o, ans⟩ :: t' ∧ (f ans).Path t' value :=
  Proc.path_op_iff

theorem reach_traffic_iff {α : Type} {o : TrafficOp} {f : o.Ans → TrafficProc α}
    {t : List (Event TrafficSig)} {q : TrafficProc α} :
    (traffic o >>= f).Reach t q ↔
      (t = [] ∧ q = (traffic o >>= f)) ∨ ∃ (ans : o.Ans) (t' : _), t = ⟨o, ans⟩ :: t' ∧ (f ans).Reach t' q :=
  Proc.reach_op_iff

/-- A program of the server among the callers. -/
abbrev onServer {α : Type} (p : ServerProc α) : TrafficProc α :=
  p.embed (J := TrafficSig) TrafficOp.server fun _ ans => ans

/-- The loop of `dt_sweep_offline` over the devices of the chains. -/
def sweepDevices (now timeout : Int) : List Nat → TrafficProc Unit
  | [] => return ()
  | p :: ps => do
      let seen ← traffic (.loadSeen p)
      if now - seen > timeout then
        traffic (.server (.device p (.storeState .offline)))
        sweepDevices now timeout ps
      else sweepDevices now timeout ps

/-- `dt_sweep_offline`. -/
def dtSweepOffline (now timeout : Int) : TrafficProc Unit := do
  let ps ← traffic .chains
  sweepDevices now timeout ps

def TrafficCall.proc : TrafficCall → TrafficProc Unit
  | .recordSensor p r => onServer (dtRecordSensor p r.seq r.temp r.humid r.now)
  | .touch id now => onServer (dtTouch id now)
  | .sweep now timeout => dtSweepOffline now timeout

/-- A thread that makes its calls one after the other. -/
def trafficThread : Loop TrafficSig (List TrafficCall) Unit
  | [] => return .inr ()
  | call :: rest => do
      traffic (.called call)
      call.proc
      return .inl rest

def trafficHandler : Handler TrafficSig (Conn × ServerCtx)
  | .server o, w => serverHandler o w
  | .chains, w => (w.2.devices.chained, w)
  | .loadSeen p, w => (((w.2.devices.heap[p]?).map Device.lastSeen).getD 0, w)
  | .called _, w => ((), w)

/-- The callers after the given schedule. -/
def trafficPool {ι : Type} [DecidableEq ι] (calls : ι → List TrafficCall) (conns : ι → Conn) (ctx : ServerCtx)
    (schedule : List ι) : Pool TrafficSig ι (List TrafficCall) Unit Conn ServerCtx :=
  Pool.run trafficThread trafficHandler (Pool.start trafficThread calls conns ctx) schedule

/-! ### What one operation does to a device -/

/-- The operation on the device at `p`, if the event is one. -/
def storeOn (p : Nat) : Event TrafficSig → Option DevAtomic
  | ⟨.server (.device q a), _⟩ => if q = p then some a else none
  | _ => none

theorem storeOn_eq_some {p : Nat} {o : TrafficOp} {ans : o.Ans} {a : DevAtomic}
    (hstore : storeOn p ⟨o, ans⟩ = some a) : o = .server (.device p a) := by
  cases o with
  | server o =>
      cases o with
      | device q b =>
          simp only [storeOn] at hstore
          split_ifs at hstore with hq
          cases hstore
          rw [hq]
      | _ => cases hstore
  | _ => cases hstore

/-- A device changes only by the stores on it. -/
theorem device_step {ctx : ServerCtx} {p : Nat} {d : Device} (hd : ctx.devices.heap[p]? = some d)
    (o : TrafficOp) (conn : Conn) :
    (trafficHandler o (conn, ctx)).2.2.devices.heap[p]? =
      some (match storeOn p ⟨o, (trafficHandler o (conn, ctx)).1⟩ with
        | some a => a.apply d
        | none => d) := by
  cases o with
  | chains => exact hd
  | loadSeen q => exact hd
  | called c => exact hd
  | server o =>
      show (ctx.after o conn).devices.heap[p]? = _
      rcases devices_step o conn ctx with (⟨hsame, hnot⟩ | ⟨q, a, rfl, hatomic⟩) | ⟨id, sid, now, -, hop, hins⟩
      · rw [hsame, hd]
        cases o with
        | device q a => exact absurd rfl (hnot q a)
        | _ => rfl
      · rw [hatomic, DeviceTable.atomic_heap, hd]
        simp only [storeOn]
        split_ifs <;> rfl
      · have hlt := (List.getElem?_eq_some_iff.mp hd).1
        rw [hins, DeviceTable.insert_heap hlt, hd]
        have ho : o = .insert id sid := congrArg Event.op hop
        subst ho
        rfl

theorem wellFormed_traffic {ctx : ServerCtx} (hwf : ctx.devices.WellFormed) (o : TrafficOp) (conn : Conn) :
    (trafficHandler o (conn, ctx)).2.2.devices.WellFormed := by
  cases o with
  | server o => exact wellFormed_step hwf o conn
  | chains => exact hwf
  | loadSeen p => exact hwf
  | called c => exact hwf

/-! ### What a thread performs -/

/-- The operation is not the beginning of a call. -/
def NotCalled (o : TrafficOp) : Prop := ∀ c, o ≠ .called c

theorem onServer_uses {α : Type} {P : TrafficOp → Prop} (hP : ∀ o, P (.server o)) (p : ServerProc α) :
    (onServer p).Uses P := by
  induction p with
  | ret value => trivial
  | op o next ih => exact ⟨hP o, fun ans => ih ans⟩

theorem sweepDevices_uses (now timeout : Int) (ps : List Nat) :
    (sweepDevices now timeout ps).Uses NotCalled := by
  induction ps with
  | nil => trivial
  | cons p ps ih =>
      refine ⟨nofun, fun seen => ?_⟩
      show (if now - seen > timeout then _ else _ : TrafficProc Unit).Uses NotCalled
      split_ifs
      · exact ⟨nofun, fun _ => ih⟩
      · exact ih

/-- Inside a call no call begins. -/
theorem proc_uses (c : TrafficCall) : c.proc.Uses NotCalled := by
  cases c with
  | recordSensor p r => exact onServer_uses (fun _ => nofun) _
  | touch id now => exact onServer_uses (fun _ => nofun) _
  | sweep now timeout => exact ⟨nofun, fun ps => sweepDevices_uses now timeout ps⟩

/-- A turn begins the first call of the list. -/
theorem called_turn {calls : List TrafficCall} {t : List (Event TrafficSig)}
    {q : TrafficProc (List TrafficCall ⊕ Unit)} (hreach : (trafficThread calls).Reach t q) {c : TrafficCall}
    (hc : ⟨.called c, ()⟩ ∈ t) : c ∈ calls := by
  cases calls with
  | nil =>
      obtain ⟨rfl, -⟩ := Proc.reach_ret_iff.mp hreach
      cases hc
  | cons call rest =>
      rcases reach_traffic_iff.mp hreach with ⟨rfl, -⟩ | ⟨_, t', rfl, hrest⟩
      · cases hc
      · rcases List.mem_cons.mp hc with heq | hmem
        · cases heq
          exact List.mem_cons_self
        · refine absurd rfl (Proc.Uses.reach (P := NotCalled) ?_ hrest _ hmem c)
          exact (proc_uses call).bind fun _ => trivial

/-- The thread makes its calls in order: what it has left is the end of its list. -/
theorem trafficThread_next {calls rest : List TrafficCall} {t : List (Event TrafficSig)}
    (hpath : (trafficThread calls).Path t (.inl rest)) : rest <:+ calls := by
  cases calls with
  | nil => cases hpath
  | cons call calls =>
      obtain ⟨_, t', -, hcall⟩ := path_traffic_iff.mp hpath
      obtain ⟨t₁, _, t₂, -, -, hret⟩ := Proc.path_bind_iff.mp hcall
      obtain ⟨-, hrest⟩ := Proc.path_ret_iff.mp hret
      cases hrest
      exact List.suffix_cons _ _

/-- A thread that is through has made every call of its list. -/
theorem call_made {calls : List TrafficCall} {t : List (Event TrafficSig)} {r : Unit}
    (hpath : Loop.Path trafficThread calls t r) {c : TrafficCall} (hc : c ∈ calls) :
    ∃ t', c.proc.Path t' () ∧ t' ⊆ t := by
  induction hpath with
  | @stop calls t r hturn =>
      cases calls with
      | nil => cases hc
      | cons call rest =>
          obtain ⟨_, t', -, hcall⟩ := path_traffic_iff.mp hturn
          obtain ⟨t₁, _, t₂, -, -, hret⟩ := Proc.path_bind_iff.mp hcall
          obtain ⟨-, hrest⟩ := Proc.path_ret_iff.mp hret
          cases hrest
  | @turn calls next t t' r hturn _ ih =>
      cases calls with
      | nil => cases hc
      | cons call rest =>
          obtain ⟨_, u, rfl, hcall⟩ := path_traffic_iff.mp hturn
          obtain ⟨t₁, _, t₂, rfl, hproc, hret⟩ := Proc.path_bind_iff.mp hcall
          obtain ⟨rfl, hrest⟩ := Proc.path_ret_iff.mp hret
          cases hrest
          rcases List.mem_cons.mp hc with rfl | hc
          · refine ⟨t₁, hproc, ?_⟩
            intro e he
            simp [he]
          · obtain ⟨u, hu, hsub⟩ := ih hc
            exact ⟨u, hu, List.subset_append_of_subset_right _ hsub⟩

/-- Calls begun by a thread are of its list. -/
theorem called_mem {ι : Type} [DecidableEq ι] {calls : ι → List TrafficCall} {conns : ι → Conn}
    {ctx : ServerCtx} {schedule : List ι} {i : ι} {c : TrafficCall}
    (hc : (i, ⟨.called c, ()⟩) ∈ (trafficPool calls conns ctx schedule).log) : c ∈ calls i := by
  obtain ⟨turn, s, q, hs, hreach, hmem, -⟩ := Pool.turn_of_mem (P := fun i s => s <:+ calls i)
    (fun i s t s' hs hpath => (trafficThread_next hpath).trans hs) (fun i => List.suffix_refl _) hc
  exact hs.subset (called_turn hreach hmem)

/-- A server with one device. -/
def oneDevice : ServerCtx := { freshServer with devices := dtInit.insert 7 1 0 }

theorem oneDevice_wellFormed : oneDevice.devices.WellFormed := DeviceTable.wellFormed_init.insert rfl 1 0

end PulseLink
