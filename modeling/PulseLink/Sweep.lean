import PulseLink.TableTraffic

/-! The offline sweep among concurrent traffic. `dt_sweep_offline` loads `last_seen` and stores OFFLINE in
two steps, and the calls that refresh a device store `last_seen` and ONLINE in two steps. As long as no store
of `last_seen` comes between the check and the store of a sweep, a device that is OFFLINE although it has
been refreshed has a call about to store ONLINE. -/

namespace PulseLink

/-! ### Calls and races in a log -/

def calledOf : Event TrafficSig → Option TrafficCall
  | ⟨.called c, _⟩ => some c
  | _ => none

def TrafficCall.sweepTime : TrafficCall → Option Int
  | .sweep now _ => some now
  | _ => none

/-- No call is in progress in the thread. -/
def Thread.between {σ ρ : Type} : Thread TrafficSig σ ρ → Bool
  | .busy (.op (.called _) _) => true
  | .busy (.op _ _) => false
  | .busy (.ret _) => true
  | .done _ => true

section Log

variable {ι : Type}

/-- The calls in the order in which they begin. -/
def callsOf (log : List (ι × Event TrafficSig)) : List TrafficCall := log.filterMap fun entry => calledOf entry.2

/-- The time of the sweep that began last. -/
def latestSweep (log : List (ι × Event TrafficSig)) : Option Int :=
  ((callsOf log).filterMap TrafficCall.sweepTime).getLast?

theorem mem_callsOf {log : List (ι × Event TrafficSig)} {i : ι} {c : TrafficCall}
    (hc : (i, ⟨.called c, ()⟩) ∈ log) : c ∈ callsOf log :=
  List.mem_filterMap.mpr ⟨_, hc, rfl⟩

/-- With times that do not decrease in call order, the latest sweep has the latest time of all sweeps. -/
theorem le_latestSweep {log : List (ι × Event TrafficSig)}
    (htimes : ((callsOf log).map TrafficCall.now).Pairwise (· ≤ ·)) {now : Int}
    (hlatest : latestSweep log = some now)
    {i : ι} {now' timeout : Int} (hsweep : (i, ⟨.called (.sweep now' timeout), ()⟩) ∈ log) : now' ≤ now := by
  have hsub : ((callsOf log).filterMap TrafficCall.sweepTime).Sublist ((callsOf log).map TrafficCall.now) := by
    generalize callsOf log = cs
    induction cs with
    | nil => exact List.Sublist.refl _
    | cons c cs ih =>
        cases c with
        | recordSensor p r => exact ih.cons _
        | touch id now => exact ih.cons _
        | sweep now timeout => exact ih.cons_cons _
  have hsorted := htimes.sublist hsub
  have hmem : now' ∈ (callsOf log).filterMap TrafficCall.sweepTime :=
    List.mem_filterMap.mpr ⟨_, mem_callsOf hsweep, rfl⟩
  rw [latestSweep] at hlatest
  generalize (callsOf log).filterMap TrafficCall.sweepTime = times at hsorted hmem hlatest
  obtain ⟨before, rfl⟩ := List.getLast?_eq_some_iff.mp hlatest
  rcases List.mem_append.mp hmem with h | h
  · exact (List.pairwise_append.mp hsorted).2.2 now' h now (List.mem_singleton.mpr rfl)
  · rw [List.mem_singleton.mp h]

variable [DecidableEq ι]

/-- Whether `last_seen` of a device is still what a thread loaded there last. -/
def stillSeen (fresh : ι → Nat → Bool) : ι × Event TrafficSig → ι → Nat → Bool
  | (i, ⟨.loadSeen p, _⟩), j, q => if j = i ∧ q = p then true else fresh j q
  | (_, ⟨.server (.device p (.storeSeen _)), _⟩), j, q => if q = p then false else fresh j q
  | _, j, q => fresh j q

/-- A sweep marks a device OFFLINE whose `last_seen` has been stored since the sweep loaded it. -/
def overtaken (fresh : ι → Nat → Bool) : ι × Event TrafficSig → Bool
  | (i, ⟨.server (.device p (.storeState .offline)), _⟩) => !fresh i p
  | _ => false

/-- No packet lands between the check and the store of a sweep. -/
def NotOvertaken : (ι → Nat → Bool) → List (ι × Event TrafficSig) → Prop
  | _, [] => True
  | fresh, entry :: log => overtaken fresh entry = false ∧ NotOvertaken (stillSeen fresh entry) log

instance decidableNotOvertaken :
    (fresh : ι → Nat → Bool) → (log : List (ι × Event TrafficSig)) → Decidable (NotOvertaken fresh log)
  | _, [] => .isTrue trivial
  | fresh, entry :: log =>
      have := decidableNotOvertaken (stillSeen fresh entry) log
      inferInstanceAs (Decidable (_ ∧ _))

/-- At the start nothing has been loaded. -/
def freshAfter (log : List (ι × Event TrafficSig)) : ι → Nat → Bool := log.foldl stillSeen fun _ _ => false

theorem freshAfter_append (log : List (ι × Event TrafficSig)) (entry : ι × Event TrafficSig) :
    freshAfter (log ++ [entry]) = stillSeen (freshAfter log) entry := by
  rw [freshAfter, List.foldl_append]
  rfl

theorem notOvertaken_append {fresh : ι → Nat → Bool} {log : List (ι × Event TrafficSig)}
    {entry : ι × Event TrafficSig} :
    NotOvertaken fresh (log ++ [entry]) ↔
      NotOvertaken fresh log ∧ overtaken (log.foldl stillSeen fresh) entry = false := by
  induction log generalizing fresh with
  | nil => simp [NotOvertaken]
  | cons e log ih =>
      simp only [List.cons_append, NotOvertaken, ih, List.foldl_cons]
      exact and_assoc.symm

end Log

/-! ### What the calls can do -/

/-- A program in which every store of `last_seen` is followed at once by the store of ONLINE to the same
device. -/
def SeenThenOnline {α : Type} : TrafficProc α → Prop
  | .ret _ => True
  | .op o next =>
      (∀ p v, o = .server (.device p (.storeSeen v)) →
        ∀ ans, ∃ next', next ans = .op (.server (.device p (.storeState .online))) next') ∧
      ∀ ans, SeenThenOnline (next ans)

theorem seenThenOnline_ret {α : Type} (value : α) : SeenThenOnline (.ret value) := trivial

theorem seenThenOnline_other {α : Type} {o : TrafficOp} {next : o.Ans → TrafficProc α}
    (ho : ∀ p v, o ≠ .server (.device p (.storeSeen v))) (hnext : ∀ ans, SeenThenOnline (next ans)) :
    SeenThenOnline (.op o next) :=
  ⟨fun p v h => absurd h (ho p v), hnext⟩

theorem SeenThenOnline.bind {α β : Type} {p : TrafficProc α} {f : α → TrafficProc β} (hp : SeenThenOnline p)
    (hf : ∀ value, SeenThenOnline (f value)) : SeenThenOnline (p >>= f) := by
  induction p with
  | ret value => exact hf value
  | op o next ih =>
      refine ⟨?_, fun ans => ih ans (hp.2 ans)⟩
      intro q v ho ans
      obtain ⟨next', hnext'⟩ := hp.1 q v ho ans
      exact ⟨fun ans => next' ans >>= f, congrArg (fun p : TrafficProc α => p >>= f) hnext'⟩

theorem SeenThenOnline.reach {α : Type} {p q : TrafficProc α} {t : List (Event TrafficSig)}
    (hp : SeenThenOnline p) (hreach : p.Reach t q) : SeenThenOnline q := by
  induction hreach with
  | refl p => exact hp
  | op rest ih => exact ih (hp.2 _)

theorem sweepDevices_seenThenOnline (now timeout : Int) (ps : List Nat) :
    SeenThenOnline (sweepDevices now timeout ps) := by
  induction ps with
  | nil => trivial
  | cons p ps ih =>
      refine seenThenOnline_other nofun fun seen => ?_
      show SeenThenOnline (if now - seen > timeout then _ else _)
      split_ifs
      · exact seenThenOnline_other nofun fun _ => ih
      · exact ih

/-- The two stores that refresh a device. -/
theorem refresh_seenThenOnline {α : Type} (p : Nat) (now : Int) {rest : TrafficProc α}
    (hrest : SeenThenOnline rest) :
    SeenThenOnline (.op (.server (.device p (.storeSeen now)))
      fun _ => .op (.server (.device p (.storeState .online))) fun _ => rest) := by
  refine ⟨?_, fun _ => seenThenOnline_other nofun fun _ => hrest⟩
  intro q v ho ans
  cases ho
  exact ⟨_, rfl⟩

theorem proc_seenThenOnline (c : TrafficCall) : SeenThenOnline c.proc := by
  cases c with
  | recordSensor p r =>
      refine seenThenOnline_other nofun fun _ => seenThenOnline_other nofun fun _ =>
        seenThenOnline_other nofun fun _ => ?_
      exact refresh_seenThenOnline p r.now (seenThenOnline_other nofun fun _ => trivial)
  | touch id now =>
      refine seenThenOnline_other nofun fun hit => ?_
      cases hit with
      | some p => exact seenThenOnline_other nofun fun _ => refresh_seenThenOnline p now (seenThenOnline_ret ())
      | none =>
          refine seenThenOnline_other nofun fun r => seenThenOnline_other nofun fun _ => ?_
          cases r with
          | found p => exact refresh_seenThenOnline p now (seenThenOnline_ret ())
          | inserted p => exact refresh_seenThenOnline p now (seenThenOnline_ret ())
          | noMemory => trivial
  | sweep now timeout => exact seenThenOnline_other nofun fun ps => sweepDevices_seenThenOnline now timeout ps

theorem thread_seenThenOnline (calls : List TrafficCall) : SeenThenOnline (trafficThread calls) := by
  cases calls with
  | nil => trivial
  | cons call rest =>
      exact seenThenOnline_other nofun fun _ => (proc_seenThenOnline call).bind fun _ => trivial

theorem seenThenOnline_of_stands {calls : List TrafficCall} {t : List (Event TrafficSig)}
    {q : TrafficProc (List TrafficCall ⊕ Unit)} (hstands : Pool.Stands trafficThread calls t (.busy q)) :
    SeenThenOnline q := by
  generalize hth : Thread.busy q = th at hstands
  induction hstands with
  | @inside calls t p hreach =>
      cases hth
      exact (thread_seenThenOnline calls).reach hreach
  | left hlast => cases hth
  | later hturn _ ih => exact ih hth

/-- Marks a device OFFLINE. -/
def marksOffline (p : Nat) : TrafficOp := .server (.device p (.storeState .offline))

/-- Why a thread may be about to mark `p` OFFLINE: it is in a sweep that has just loaded an expired
`last_seen` of that device, one of those it found in the chains. -/
def Justified (t : List (Event TrafficSig)) (p : Nat) : Prop :=
  ∃ t' now timeout ps, ∃ v : Int, t = t' ++ [⟨.loadSeen p, v⟩] ∧ ⟨.called (.sweep now timeout), ()⟩ ∈ t' ∧
    ⟨.chains, ps⟩ ∈ t' ∧ p ∈ ps ∧ now - v > timeout

theorem sweepDevices_reach {α : Type} {now timeout : Int} {ps : List Nat} {value : Unit → α}
    {t : List (Event TrafficSig)} {p : Nat} {next : Unit → TrafficProc α}
    (hreach : (sweepDevices now timeout ps >>= fun u => Proc.ret (value u)).Reach t
      (.op (marksOffline p) next)) :
    ∃ t', ∃ v : Int, t = t' ++ [⟨.loadSeen p, v⟩] ∧ p ∈ ps ∧ now - v > timeout := by
  induction ps generalizing t with
  | nil =>
      obtain ⟨-, h⟩ := Proc.reach_ret_iff.mp hreach
      cases h
  | cons q ps ih =>
      rcases Proc.reach_op_iff.mp hreach with ⟨-, h⟩ | ⟨seen, t₁, rfl, hrest⟩
      · cases h
      · have hrest' : ((if now - seen > timeout then
            traffic (marksOffline q) >>= fun _ => sweepDevices now timeout ps
            else sweepDevices now timeout ps) >>= fun u => Proc.ret (value u)).Reach t₁
              (.op (marksOffline p) next) := hrest
        split_ifs at hrest' with hold
        · rcases Proc.reach_op_iff.mp hrest' with ⟨rfl, h⟩ | ⟨_, t₂, rfl, hloop⟩
          · cases h
            exact ⟨[], seen, rfl, List.mem_cons_self, hold⟩
          · obtain ⟨t', v, rfl, hp, hv⟩ := ih hloop
            exact ⟨_ :: _ :: t', v, rfl, List.mem_cons_of_mem _ hp, hv⟩
        · obtain ⟨t', v, rfl, hp, hv⟩ := ih hrest'
          exact ⟨_ :: t', v, rfl, List.mem_cons_of_mem _ hp, hv⟩

/-- Not the store of OFFLINE. -/
def NoMark (o : TrafficOp) : Prop := ∀ p, o ≠ marksOffline p

theorem dtRecordSensor_noMark (p : Nat) (r : SensorArgs) : (TrafficCall.recordSensor p r).proc.Uses NoMark :=
  ⟨nofun, fun _ => ⟨nofun, fun _ =>
    ⟨nofun, fun _ => ⟨nofun, fun _ => ⟨nofun, fun _ => ⟨nofun, fun _ => trivial⟩⟩⟩⟩⟩⟩

theorem dtTouch_noMark (id : UInt32) (now : Int) : (TrafficCall.touch id now).proc.Uses NoMark := by
  refine ⟨nofun, fun hit => ?_⟩
  cases hit with
  | some p => exact ⟨nofun, fun _ => ⟨nofun, fun _ => ⟨nofun, fun _ => trivial⟩⟩⟩
  | none =>
      refine ⟨nofun, fun r => ⟨nofun, fun _ => ?_⟩⟩
      cases r with
      | found p => exact ⟨nofun, fun _ => ⟨nofun, fun _ => trivial⟩⟩
      | inserted p => exact ⟨nofun, fun _ => ⟨nofun, fun _ => trivial⟩⟩
      | noMemory => trivial

theorem justified_turn {calls : List TrafficCall} {t : List (Event TrafficSig)} {p : Nat}
    {next : Unit → TrafficProc (List TrafficCall ⊕ Unit)}
    (hreach : (trafficThread calls).Reach t (.op (marksOffline p) next)) : Justified t p := by
  cases calls with
  | nil =>
      obtain ⟨-, h⟩ := Proc.reach_ret_iff.mp hreach
      cases h
  | cons call rest =>
      rcases reach_traffic_iff.mp hreach with ⟨-, h⟩ | ⟨_, t₁, rfl, hcall⟩
      · cases h
      · have hnot : ¬ call.proc.Uses NoMark := by
          intro huses
          refine (Proc.Within.reach (P := NoMark) (Q := fun _ => True) ?_ hcall).2.1 p rfl
          exact huses.bind fun _ => trivial
        cases call with
        | recordSensor q r => exact absurd (dtRecordSensor_noMark q r) hnot
        | touch id now => exact absurd (dtTouch_noMark id now) hnot
        | sweep now timeout =>
            rcases Proc.reach_op_iff.mp hcall with ⟨-, h⟩ | ⟨ps, t₂, rfl, hloop⟩
            · cases h
            · obtain ⟨t', v, rfl, hp, hv⟩ := sweepDevices_reach hloop
              exact ⟨_ :: _ :: t', now, timeout, ps, v, rfl, by simp, by simp, hp, hv⟩

theorem justified_of_stands {calls : List TrafficCall} {t : List (Event TrafficSig)} {p : Nat}
    {next : Unit → TrafficProc (List TrafficCall ⊕ Unit)}
    (hstands : Pool.Stands trafficThread calls t (.busy (.op (marksOffline p) next))) : Justified t p := by
  generalize hth : Thread.busy (I := TrafficSig) (.op (marksOffline p) next) = th at hstands
  induction hstands with
  | inside hreach =>
      cases hth
      exact justified_turn hreach
  | left hlast => cases hth
  | @later s s' t t' th hturn _ ih =>
      obtain ⟨u, now, timeout, ps, v, rfl, hcalled, hchains, hp, hv⟩ := ih hth
      exact ⟨t ++ u, now, timeout, ps, v, (List.append_assoc _ _ _).symm, List.mem_append_right _ hcalled,
        List.mem_append_right _ hchains, hp, hv⟩

/-! ### The table during the run -/

section Run

variable {ι : Type} [DecidableEq ι]

/-- What the log says about the table: it is well formed, the devices found in the chains are on the heap,
and a thread whose last operation loaded `last_seen` knows it as long as it is fresh. -/
structure SweepLog (log : List (ι × Event TrafficSig)) (ctx : ServerCtx) : Prop where
  wellFormed : ctx.devices.WellFormed
  walked : ∀ i ps, (i, ⟨.chains, ps⟩) ∈ log → ∀ p ∈ ps, p < ctx.devices.heap.length
  loaded : ∀ i p t ps, ∀ v : Int, Pool.eventsOf log i = t ++ [⟨.loadSeen p, v⟩] → ⟨.chains, ps⟩ ∈ t → p ∈ ps →
    freshAfter log i p = true → ∀ d, ctx.devices.heap[p]? = some d → d.lastSeen = v

theorem heap_length_step (ctx : ServerCtx) (o : TrafficOp) (conn : Conn) :
    ctx.devices.heap.length ≤ (trafficHandler o (conn, ctx)).2.2.devices.heap.length := by
  by_contra hlt
  rw [Nat.not_le] at hlt
  have hd := device_step (List.getElem?_eq_getElem hlt) o conn
  rw [List.getElem?_eq_none (Nat.le_refl _)] at hd
  cases hd

/-- A store other than of `last_seen` leaves `last_seen`. -/
theorem lastSeen_apply {a : DevAtomic} (ha : ∀ v, a ≠ .storeSeen v) (d : Device) :
    (a.apply d).lastSeen = d.lastSeen := by
  cases a with
  | storeSeen v => exact absurd rfl (ha v)
  | _ => rfl

theorem stillSeen_other {fresh : ι → Nat → Bool} {i j : ι} {p : Nat} {e : Event TrafficSig} (hij : i ≠ j)
    (hfresh : stillSeen fresh (j, e) i p = true) :
    fresh i p = true ∧ ∀ a, storeOn p e = some a → ∀ v, a ≠ .storeSeen v := by
  obtain ⟨o, ans⟩ := e
  cases o with
  | chains => exact ⟨hfresh, fun _ h => by cases h⟩
  | called c => exact ⟨hfresh, fun _ h => by cases h⟩
  | loadSeen q =>
      simp only [stillSeen, hij, false_and, if_false] at hfresh
      exact ⟨hfresh, fun _ h => by cases h⟩
  | server o =>
      cases o with
      | device q a =>
          cases a with
          | storeSeen w =>
              simp only [stillSeen] at hfresh
              split_ifs at hfresh with hpq
              refine ⟨hfresh, ?_⟩
              intro a ha
              simp only [storeOn, if_neg (Ne.symm hpq)] at ha
              cases ha
          | _ =>
              refine ⟨hfresh, ?_⟩
              intro a ha v
              simp only [storeOn] at ha
              split_ifs at ha
              cases ha
              rintro ⟨⟩
      | _ => exact ⟨hfresh, fun _ h => by cases h⟩

theorem SweepLog.step {log : List (ι × Event TrafficSig)} {ctx : ServerCtx} (hlog : SweepLog log ctx) (i : ι)
    (o : TrafficOp) (conn : Conn) :
    SweepLog (log ++ [(i, ⟨o, (trafficHandler o (conn, ctx)).1⟩)]) (trafficHandler o (conn, ctx)).2.2 where
  wellFormed := wellFormed_traffic hlog.wellFormed o conn
  walked := by
    intro j ps hj p hp
    refine lt_of_lt_of_le ?_ (heap_length_step ctx o conn)
    rcases List.mem_append.mp hj with hold | hnew
    · exact hlog.walked j ps hold p hp
    · rw [List.mem_singleton] at hnew
      cases o with
      | chains =>
          cases hnew
          obtain ⟨b, hb⟩ := DeviceTable.mem_chained.mp hp
          exact hlog.wellFormed.lt_length hb
      | _ => cases hnew
  loaded := by
    intro j p t ps v hevents hchains hp hfresh d hd
    rw [freshAfter_append] at hfresh
    by_cases hij : j = i
    · subst hij
      rw [Pool.eventsOf_append_self] at hevents
      obtain ⟨rfl, hlast⟩ := List.append_inj' hevents rfl
      rw [List.singleton_inj] at hlast
      cases o with
      | loadSeen q =>
          cases hlast
          show d.lastSeen = ((ctx.devices.heap[p]?).map Device.lastSeen).getD 0
          rw [show ctx.devices.heap[p]? = some d from hd]
          rfl
      | _ => cases hlast
    · rw [Pool.eventsOf_append_other _ _ (Ne.symm hij)] at hevents
      obtain ⟨hfresh', hstore⟩ := stillSeen_other hij hfresh
      have hchains' : (j, ⟨.chains, ps⟩) ∈ log := by
        rw [← Pool.mem_eventsOf, hevents]
        exact List.mem_append_left _ hchains
      have hlt := hlog.walked j ps hchains' p hp
      have hold := List.getElem?_eq_getElem hlt
      have hseen := hlog.loaded j p t ps v hevents hchains hp hfresh' _ hold
      have hstep := device_step hold o conn
      rw [hd, Option.some.injEq] at hstep
      subst hstep
      split
      · next a ha => rw [lastSeen_apply (hstore a ha), hseen]
      · exact hseen

/-- Some sweep that has begun finds `seen` expired. -/
def Expired (log : List (ι × Event TrafficSig)) (seen : Int) : Prop :=
  ∃ i now timeout, (i, ⟨.called (.sweep now timeout), ()⟩) ∈ log ∧ now - seen > timeout

omit [DecidableEq ι] in
theorem Expired.append {log more : List (ι × Event TrafficSig)} {seen : Int} (h : Expired log seen) :
    Expired (log ++ more) seen := by
  obtain ⟨i, now, timeout, hmem, hlt⟩ := h
  exact ⟨i, now, timeout, List.mem_append_left _ hmem, hlt⟩

/-- The store of ONLINE. -/
def marksOnline (p : Nat) : TrafficOp := .server (.device p (.storeState .online))

abbrev Callers (ι : Type) := Pool TrafficSig ι (List TrafficCall) Unit Conn ServerCtx

/-- Some thread is about to store ONLINE to `p`. -/
def OnlineOwed (pool : Callers ι) (p : Nat) : Prop :=
  ∃ j next, pool.threads j = .busy (.op (marksOnline p) next)

/-- A device that is OFFLINE is expired, or about to be ONLINE again. -/
def OfflineJustified (pool : Callers ι) : Prop :=
  ∀ p d, pool.shared.devices.heap[p]? = some d → d.state = .offline →
    Expired pool.log d.lastSeen ∨ OnlineOwed pool p

/-- A device that was not there before comes ONLINE. -/
theorem new_device_online {ctx : ServerCtx} {p : Nat} (hnone : ctx.devices.heap[p]? = none) {o : TrafficOp}
    {conn : Conn} {d : Device} (hd : (trafficHandler o (conn, ctx)).2.2.devices.heap[p]? = some d) :
    d.state = .online := by
  cases o with
  | chains => exact absurd (hnone.symm.trans hd) nofun
  | loadSeen q => exact absurd (hnone.symm.trans hd) nofun
  | called c => exact absurd (hnone.symm.trans hd) nofun
  | server o =>
      have hd' : (ctx.after o conn).devices.heap[p]? = some d := hd
      rcases devices_step o conn ctx with (⟨hsame, -⟩ | ⟨q, a, -, hatomic⟩) | ⟨id, sid, now, -, -, hins⟩
      · rw [hsame, hnone] at hd'
        cases hd'
      · rw [hatomic, DeviceTable.atomic_heap, hnone, Option.map_none, ite_self] at hd'
        cases hd'
      · rw [hins, DeviceTable.insert, List.getElem?_append_right (List.getElem?_eq_none_iff.mp hnone)] at hd'
        have hmem := List.mem_of_getElem? hd'
        rw [List.mem_singleton] at hmem
        rw [hmem]
        rfl

/-- What is owed stays owed, unless it is this thread that pays. -/
theorem OnlineOwed.step {pool : Callers ι} {p : Nat} (howed : OnlineOwed pool p) {i : ι}
    (hother : ∀ next, pool.threads i ≠ .busy (.op (marksOnline p) next)) :
    OnlineOwed (pool.step trafficThread trafficHandler i) p := by
  obtain ⟨j, next, hj⟩ := howed
  have hji : j ≠ i := by
    rintro rfl
    exact hother next hj
  refine ⟨j, next, ?_⟩
  rw [← hj]
  exact Pool.step_other trafficThread trafficHandler hji

/-- A thread that marks a device OFFLINE, and was not overtaken, has seen it expired. -/
theorem expired_of_mark {log : List (ι × Event TrafficSig)} {ctx : ServerCtx} (hlog : SweepLog log ctx)
    {i : ι} {p : Nat} {d : Device} (hjustified : Justified (Pool.eventsOf log i) p)
    (hfresh : freshAfter log i p = true) (hd : ctx.devices.heap[p]? = some d) : Expired log d.lastSeen := by
  obtain ⟨t', now, timeout, ps, v, ht, hcalled, hchains, hp, hv⟩ := hjustified
  have hseen := hlog.loaded i p t' ps v ht hchains hp hfresh d hd
  refine ⟨i, now, timeout, ?_, ?_⟩
  · rw [← Pool.mem_eventsOf, ht]
    exact List.mem_append_left _ hcalled
  · rw [hseen]
    exact hv

/-- An operation that does not store ONLINE to a device leaves the reasons for its being OFFLINE as they are. -/
theorem OfflineJustified.keep {pool : Callers ι} (hoffline : OfflineJustified pool) {i : ι} {o : TrafficOp}
    {next : o.Ans → TrafficProc (List TrafficCall ⊕ Unit)} (hthread : pool.threads i = .busy (.op o next))
    {p : Nat} (hne : o ≠ marksOnline p) {d : Device} (hd : pool.shared.devices.heap[p]? = some d)
    (hstate : d.state = .offline) {seen : Int} (hseen : d.lastSeen = seen) :
    Expired (pool.step trafficThread trafficHandler i).log seen ∨
      OnlineOwed (pool.step trafficThread trafficHandler i) p := by
  rcases hoffline p d hd hstate with hexpired | howed
  · left
    rw [Pool.step_op trafficThread trafficHandler hthread, ← hseen]
    exact hexpired.append
  · right
    refine howed.step fun next' hnext' => ?_
    rw [hthread] at hnext'
    cases hnext'
    exact hne rfl

/-- One operation of a thread keeps what is said about OFFLINE devices. -/
theorem OfflineJustified.op {pool : Callers ι} {begins : ι → List TrafficCall}
    (hoffline : OfflineJustified pool) (hlog : SweepLog pool.log pool.shared)
    (hstands : ∀ i, Pool.Stands trafficThread (begins i) (Pool.eventsOf pool.log i) (pool.threads i)) {i : ι}
    {o : TrafficOp} {next : o.Ans → TrafficProc (List TrafficCall ⊕ Unit)}
    (hthread : pool.threads i = .busy (.op o next))
    (hclear : overtaken (freshAfter pool.log)
      (i, ⟨o, (trafficHandler o (pool.locals i, pool.shared)).1⟩) = false) :
    OfflineJustified (pool.step trafficThread trafficHandler i) := by
  have hi := hstands i
  rw [hthread] at hi
  have hpool := Pool.step_op trafficThread trafficHandler hthread
  intro p d' hd' hstate
  have hd'' : (trafficHandler o (pool.locals i, pool.shared)).2.2.devices.heap[p]? = some d' := by
    rw [hpool] at hd'
    exact hd'
  cases hd : pool.shared.devices.heap[p]? with
  | none => exact absurd (hstate.symm.trans (new_device_online hd hd'')) (fun h => by cases h)
  | some d =>
      have hstep := device_step hd o (pool.locals i)
      rw [hd'', Option.some.injEq] at hstep
      cases hstore : storeOn p ⟨o, (trafficHandler o (pool.locals i, pool.shared)).1⟩ with
      | none =>
          rw [hstore] at hstep
          subst hstep
          refine hoffline.keep hthread ?_ hd hstate rfl
          rintro rfl
          simp [storeOn, marksOnline] at hstore
      | some a =>
          rw [hstore] at hstep
          subst hstep
          obtain rfl := storeOn_eq_some hstore
          cases a with
          | storeSeen v =>
              obtain ⟨next', hnext'⟩ := (seenThenOnline_of_stands hi).1 p v rfl ()
              refine Or.inr ⟨i, next', ?_⟩
              rw [hpool]
              show Function.update pool.threads i (.busy (next ())) i = _
              rw [Function.update_self, hnext']
              rfl
          | storeState st =>
              cases st with
              | online => cases hstate
              | offline =>
                  have hfresh : freshAfter pool.log i p = true := by simpa [overtaken] using hclear
                  have hexpired := expired_of_mark hlog (justified_of_stands hi) hfresh hd
                  left
                  rw [hpool]
                  exact hexpired.append
          | storeSeq v => exact hoffline.keep hthread (fun h => by cases h) hd hstate rfl
          | storeTemp v => exact hoffline.keep hthread (fun h => by cases h) hd hstate rfl
          | storeHumid v => exact hoffline.keep hthread (fun h => by cases h) hd hstate rfl
          | addOk => exact hoffline.keep hthread (fun h => by cases h) hd hstate rfl
          | addBad => exact hoffline.keep hthread (fun h => by cases h) hd hstate rfl

/-- A step of a thread that is at no operation keeps it. -/
theorem OfflineJustified.quiet {pool : Callers ι} (hoffline : OfflineJustified pool) {i : ι}
    (hthread : ∀ o next, pool.threads i ≠ .busy (.op o next)) :
    OfflineJustified (pool.step trafficThread trafficHandler i) := by
  obtain ⟨hshared, hlog⟩ := Pool.step_quiet trafficThread trafficHandler hthread
  intro p d hd hstate
  rw [hshared] at hd
  rw [hlog]
  exact (hoffline p d hd hstate).imp_right fun howed => howed.step fun next => hthread _ next

/-- In every reachable state without a race, a device that is OFFLINE is expired or about to be ONLINE. -/
theorem offlineJustified_run {calls : ι → List TrafficCall} {conns : ι → Conn} {ctx : ServerCtx}
    (hwf : ctx.devices.WellFormed) (honline : ∀ d ∈ ctx.devices.heap, d.state = .online) (schedule : List ι) :
    let pool := trafficPool calls conns ctx schedule
    NotOvertaken (fun _ _ => false) pool.log → OfflineJustified pool := by
  refine (Pool.run_invariant trafficThread trafficHandler (fun pool =>
    (∀ i, Pool.Stands trafficThread (calls i) (Pool.eventsOf pool.log i) (pool.threads i)) ∧
      SweepLog pool.log pool.shared ∧ (NotOvertaken (fun _ _ => false) pool.log → OfflineJustified pool))
    ?_ ⟨fun _ => .inside (.refl _), ⟨hwf, ?_, ?_⟩, ?_⟩ schedule).2.2
  · rintro pool i ⟨hstands, hlog, hoffline⟩
    refine ⟨Pool.stands_step hstands i, ?_⟩
    by_cases hop : ∃ o next, pool.threads i = .busy (.op o next)
    · obtain ⟨o, next, hthread⟩ := hop
      have hstep := Pool.step_op trafficThread trafficHandler hthread
      refine ⟨by rw [hstep]; exact hlog.step i o (pool.locals i), ?_⟩
      intro hclear
      rw [hstep] at hclear
      obtain ⟨hbefore, hnow⟩ := notOvertaken_append.mp hclear
      exact (hoffline hbefore).op hlog hstands hthread hnow
    · push Not at hop
      obtain ⟨hshared, hsame⟩ := Pool.step_quiet trafficThread trafficHandler hop
      refine ⟨by rw [hshared, hsame]; exact hlog, ?_⟩
      rw [hsame]
      exact fun hclear => (hoffline hclear).quiet hop
  · intro i ps hmem
    cases hmem
  · intro i p t ps v hevents
    simp [Pool.start, Pool.eventsOf] at hevents
  · intro _ p d hd hstate
    exact absurd ((honline d (List.mem_of_getElem? hd)).symm.trans hstate) (fun h => by cases h)

/-- **The sweep does not override fresher traffic, unless a packet overtakes it.** Callers on a table whose
devices are ONLINE, with one timeout for all sweeps and times that do not decrease in call order: if no store
of `last_seen` ever comes between the check of a sweep and its store, then whenever no call is in progress a
device that is not expired at the time of the latest sweep is not OFFLINE. -/
theorem sweep_respects_traffic (calls : ι → List TrafficCall) (conns : ι → Conn) (ctx : ServerCtx) (T : Int)
    (schedule : List ι) (hwf : ctx.devices.WellFormed) (honline : ∀ d ∈ ctx.devices.heap, d.state = .online)
    (htimeout : ∀ i now timeout, TrafficCall.sweep now timeout ∈ calls i → timeout = T) :
    let pool := trafficPool calls conns ctx schedule
    ((callsOf pool.log).map TrafficCall.now).Pairwise (· ≤ ·) →
    (∀ i, (pool.threads i).between = true) →
    NotOvertaken (fun _ _ => false) pool.log →
    ∀ now, latestSweep pool.log = some now →
    ∀ (p : Nat) (d : Device), pool.shared.devices.heap[p]? = some d → now - d.lastSeen ≤ T →
      d.state ≠ .offline := by
  intro pool htimes hquiet hclear now hlatest p d hd hfresh hstate
  rcases offlineJustified_run hwf honline schedule hclear p d hd hstate with
    ⟨i, now', timeout, hsweep, hexpired⟩ | ⟨j, next, hj⟩
  · have hle := le_latestSweep htimes hlatest hsweep
    have hT := htimeout i now' timeout (called_mem hsweep)
    omega
  · have hbetween := hquiet j
    rw [show pool.threads j = _ from hj] at hbetween
    cases hbetween

end Run

/-- The reaper sweeps while a worker records a reading at the same time. -/
def reaperAndWorker : Bool → List TrafficCall
  | true => [.sweep 100 15]
  | false => [.recordSensor 0 ⟨1, 2100, 4000, 100⟩]

/-- The sweep marks the device and the reading brings it back. -/
theorem sweep_respects_traffic_inTurn :
    let pool := trafficPool reaperAndWorker (fun _ => scripted []) oneDevice
      (List.replicate 6 true ++ List.replicate 9 false)
    ∀ (p : Nat) (d : Device), pool.shared.devices.heap[p]? = some d → 100 - d.lastSeen ≤ 15 →
      d.state ≠ .offline := by
  intro pool
  refine sweep_respects_traffic reaperAndWorker (fun _ => scripted []) oneDevice 15 _ oneDevice_wellFormed ?_ ?_
    (by decide +kernel) (by decide +kernel) (by decide +kernel) 100 (by decide +kernel)
  · intro d hd
    rw [show d = _ from List.mem_singleton.mp hd]
    rfl
  · intro i now timeout hmem
    cases i with
    | true =>
        cases List.mem_singleton.mp hmem
        rfl
    | false => cases List.mem_singleton.mp hmem

/-- The reading is recorded between the check of the sweep and its store: the device ends OFFLINE although it
was seen at the very time of the sweep. -/
theorem sweep_overrides_traffic :
    let pool := trafficPool reaperAndWorker (fun _ => scripted []) oneDevice
      ([true, true, true] ++ List.replicate 9 false ++ [true, true])
    ((callsOf pool.log).map TrafficCall.now).Pairwise (· ≤ ·) ∧ (∀ i, (pool.threads i).between = true) ∧
      latestSweep pool.log = some 100 ∧
      (pool.shared.devices.heap[0]?).map (fun d => (d.lastSeen, d.state)) = some (100, .offline) := by
  decide +kernel

end PulseLink
