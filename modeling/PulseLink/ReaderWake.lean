import PulseLink.BaseWait
import PulseLink.TelemetryDrv

/-! Readers asleep on `g_readq`. `tlm_write` wakes them once, behind its loop; a fault in the middle of the
loop returns with records in the ring and nobody told. Without such a fault, whenever someone sleeps while
the ring holds records, a write that has pushed one is still on its way to its wake-up. -/

namespace PulseLink

/-- `wait_event_interruptible` waits for a record, `wake_up_interruptible` wakes everyone. -/
def drvBlocking : (o : DrvOp) → Blocking DrvSig Tring o
  | .waitEvent => .waits (fun ring => 0 < ring.count) true false
  | .wakeUp => .wakes
  | _ => .never

/-- The device with its users, each working through calls. -/
abbrev Users (ι : Type) := Dozing DrvSig ι (List DrvCall × List DrvResult) (List DrvResult) UserEnv Tring

/-- The users after the given turns, from a freshly loaded driver. -/
def runUsers {ι : Type} [DecidableEq ι] (calls : ι → List DrvCall) (envs : ι → UserEnv) (ring : Tring)
    (turns : List (Pick ι)) : Users ι :=
  Dozing.run drvBlocking tlmUser drvHandler (.start tlmUser (fun i => (calls i, [])) envs (tringInit ring)) turns

/-- The next operation is one of `tlm_write`. -/
def inWrite {α : Type} : DrvProc α → Bool
  | .op .copyFromUser _ => true
  | .op (.push _) _ => true
  | .op .wakeUp _ => true
  | _ => false

/-- The thread is inside a call of `tlm_write`. -/
def Thread.writing {σ ρ : Type} : Thread DrvSig σ ρ → Bool
  | .busy rest => inWrite rest
  | .done _ => false

/-! ### Records not yet announced -/

/-- Whether a process owes its readers a wake-up: after a push until the wake-up, or until a fault ends
the call. -/
def owes (owing : Bool) : Event DrvSig → Bool
  | ⟨.push _, _⟩ => true
  | ⟨.wakeUp, _⟩ => false
  | ⟨.copyFromUser, false⟩ => false
  | _ => owing

/-- The process owes a wake-up after performing `t`. -/
def owesAfter (owing : Bool) (t : List (Event DrvSig)) : Bool := t.foldl owes owing

/-- The event is a fault in a write that has pushed records. -/
def lateFault (owing : Bool) : Event DrvSig → Bool
  | ⟨.copyFromUser, false⟩ => owing
  | _ => false

/-- No write faults after it has pushed a record. -/
def NoLateFault : Bool → List (Event DrvSig) → Prop
  | _, [] => True
  | owing, e :: t => lateFault owing e = false ∧ NoLateFault (owes owing e) t

instance decidableNoLateFault : (owing : Bool) → (t : List (Event DrvSig)) → Decidable (NoLateFault owing t)
  | _, [] => .isTrue trivial
  | owing, e :: t =>
      have := decidableNoLateFault (owes owing e) t
      inferInstanceAs (Decidable (_ ∧ _))

theorem noLateFault_append {owing : Bool} {t t' : List (Event DrvSig)} :
    NoLateFault owing (t ++ t') ↔ NoLateFault owing t ∧ NoLateFault (owesAfter owing t) t' := by
  induction t generalizing owing with
  | nil => exact ⟨fun h => ⟨trivial, h⟩, fun h => h.2⟩
  | cons e t ih =>
      simp only [List.cons_append, NoLateFault, ih, owesAfter, List.foldl_cons]
      exact and_assoc.symm

theorem owesAfter_append (owing : Bool) (t t' : List (Event DrvSig)) :
    owesAfter owing (t ++ t') = owesAfter (owesAfter owing t) t' :=
  List.foldl_append

/-- The operation belongs to no write. -/
def Quiet (o : DrvOp) : Prop := o ≠ .copyFromUser ∧ (∀ rec, o ≠ .push rec) ∧ o ≠ .wakeUp

theorem owes_quiet {owing : Bool} {e : Event DrvSig} (he : Quiet e.op) : owes owing e = owing := by
  obtain ⟨o, ans⟩ := e
  cases o with
  | push rec => exact absurd rfl (he.2.1 rec)
  | wakeUp => exact absurd rfl he.2.2
  | copyFromUser => exact absurd rfl he.1
  | _ => rfl

theorem owesAfter_quiet {owing : Bool} {t : List (Event DrvSig)} (ht : ∀ e ∈ t, Quiet e.op) :
    owesAfter owing t = owing := by
  induction t with
  | nil => rfl
  | cons e t ih =>
      rw [owesAfter, List.foldl_cons, owes_quiet (ht e List.mem_cons_self)]
      exact ih fun e' he' => ht e' (List.mem_cons_of_mem _ he')

/-! ### Inside a call -/

/-- The end of `tlm_write` behind its loop, and the rest of the process's turn. -/
def finishWrite (len : Nat) (calls : List DrvCall) (results : List DrvResult) (ok : Bool) :
    DrvProc ((List DrvCall × List DrvResult) ⊕ List DrvResult) :=
  if ok then drv .wakeUp >>= fun _ => pure (.inl (calls, results ++ [.bytes (len / REC_SZ * REC_SZ)]))
  else pure (.inl (calls, results ++ [.efault]))

theorem write_turn {len : Nat} (hlen : len / REC_SZ ≠ 0) (ubuf : Nat → TelemetryRecord)
    (calls : List DrvCall) (results : List DrvResult) :
    tlmUser (.write len ubuf :: calls, results) =
      writeRecords ubuf 0 (len / REC_SZ) >>= finishWrite len calls results := by
  rw [tlmUser, tlmWrite, if_neg hlen, Proc.bind_assoc']
  congr 1
  funext ok
  cases ok <;> rfl

/-- While a wake-up is owed the write has not returned. -/
theorem writing_of_owes {ubuf : Nat → TelemetryRecord} {len : Nat} {calls : List DrvCall} {results : List DrvResult}
    {n i : Nat} {owing : Bool} {t : List (Event DrvSig)}
    {q : DrvProc ((List DrvCall × List DrvResult) ⊕ List DrvResult)}
    (hreach : (writeRecords ubuf i n >>= finishWrite len calls results).Reach t q) (hfault : NoLateFault owing t)
    (howes : owesAfter owing t = true) : inWrite q = true := by
  induction n generalizing i owing t with
  | zero =>
      rcases Proc.reach_op_iff.mp hreach with ⟨-, rfl⟩ | ⟨ans, t', rfl, hrest⟩
      · rfl
      · obtain ⟨rfl, -⟩ := Proc.reach_ret_iff.mp hrest
        cases howes
  | succ n ih =>
      rcases Proc.reach_op_iff.mp hreach with ⟨-, rfl⟩ | ⟨ok, t', rfl, hrest⟩
      · rfl
      · cases ok with
        | true =>
            rcases Proc.reach_op_iff.mp hrest with ⟨-, rfl⟩ | ⟨ans, t'', rfl, hloop⟩
            · rfl
            · exact ih hloop hfault.2.2 howes
        | false =>
            -- the loop ends here; a late fault is excluded, so nothing was owed
            obtain ⟨rfl, -⟩ := Proc.reach_ret_iff.mp hrest
            cases howes

/-- Inside one turn of a process: while a wake-up is owed it is in a write. -/
theorem inWrite_turn {s : List DrvCall × List DrvResult} {t : List (Event DrvSig)}
    {q : DrvProc ((List DrvCall × List DrvResult) ⊕ List DrvResult)} (hreach : (tlmUser s).Reach t q)
    (hfault : NoLateFault false t) (howes : owesAfter false t = true) : inWrite q = true := by
  have hquiet : ¬ (tlmUser s).Uses Quiet := by
    intro huses
    rw [owesAfter_quiet (huses.reach hreach)] at howes
    cases howes
  obtain ⟨calls, results⟩ := s
  cases calls with
  | nil => exact absurd trivial hquiet
  | cons call calls =>
      cases call with
      | write len ubuf =>
          by_cases hlen : len / REC_SZ = 0
          · refine absurd ?_ hquiet
            rw [tlmUser, tlmWrite, if_pos hlen]
            trivial
          · rw [write_turn hlen] at hreach
            exact writing_of_owes hreach hfault howes
      | read nonblock len =>
          refine absurd ?_ hquiet
          refine (tlmReadTry_uses ?_ ?_ ?_ ?_ nonblock len).bind fun result => by cases result <;> trivial
          all_goals simp [Quiet]
      | stats =>
          refine absurd ?_ hquiet
          exact ⟨by simp [Quiet], fun _ => ⟨by simp [Quiet], fun _ => trivial⟩⟩
      | reset =>
          refine absurd ?_ hquiet
          exact ⟨by simp [Quiet], fun _ => trivial⟩

/-- A process that owes a wake-up is inside a write. -/
theorem writing_of_stands {s : List DrvCall × List DrvResult} {t : List (Event DrvSig)}
    {th : Thread DrvSig (List DrvCall × List DrvResult) (List DrvResult)} (hstands : Pool.Stands tlmUser s t th)
    (hfault : NoLateFault false t) (howes : owesAfter false t = true) : th.writing = true := by
  induction hstands with
  | inside hreach => exact inWrite_turn hreach hfault howes
  | left hlast => exact absurd (inWrite_turn hlast.reach hfault howes) Bool.false_ne_true
  | @later s s' t t' th hturn _ ih =>
      obtain ⟨hfirst, hrest⟩ := noLateFault_append.mp hfault
      have hpaid : owesAfter false t = false := by
        rw [← Bool.not_eq_true]
        intro howes'
        exact absurd (inWrite_turn hturn.reach hfirst howes') Bool.false_ne_true
      rw [owesAfter_append, hpaid] at howes
      rw [hpaid] at hrest
      exact ih hrest howes

/-! ### Sleepers -/

/-- Whoever sleeps while the ring holds records has someone owing the wake-up. -/
def WakeOwed {ι : Type} [DecidableEq ι] (log : DrvLog ι) (ring : Tring) (asleep : ι → Bool) : Prop :=
  (∀ i, NoLateFault false (Pool.eventsOf log i)) → (∃ i, asleep i = true) → ring.count ≠ 0 →
    ∃ j, owesAfter false (Pool.eventsOf log j) = true

theorem noLateFault_init {ι : Type} [DecidableEq ι] {log : DrvLog ι} {i : ι} {e : Event DrvSig}
    (hfault : ∀ j, NoLateFault false (Pool.eventsOf (log ++ [(i, e)]) j)) :
    ∀ j, NoLateFault false (Pool.eventsOf log j) := by
  intro j
  have hj := hfault j
  by_cases hij : i = j
  · subst hij
    rw [Pool.eventsOf_append_self] at hj
    exact (noLateFault_append.mp hj).1
  · rwa [Pool.eventsOf_append_other _ _ hij] at hj

/-- A debt stays through an event of anyone that neither wakes nor is a late fault. -/
theorem owes_append {ι : Type} [DecidableEq ι] {log : DrvLog ι} {i j : ι} {e : Event DrvSig}
    (hfault : ∀ j, NoLateFault false (Pool.eventsOf (log ++ [(i, e)]) j)) (hwake : e.op ≠ .wakeUp)
    (howes : owesAfter false (Pool.eventsOf log j) = true) :
    owesAfter false (Pool.eventsOf (log ++ [(i, e)]) j) = true := by
  by_cases hij : i = j
  · subst hij
    have hi := hfault i
    rw [Pool.eventsOf_append_self] at hi ⊢
    have hlate := (noLateFault_append.mp hi).2.1
    rw [owesAfter_append, howes]
    rw [howes] at hlate
    obtain ⟨o, ans⟩ := e
    cases o with
    | wakeUp => exact absurd rfl hwake
    | copyFromUser =>
        cases ans with
        | true => rfl
        | false => cases hlate
    | _ => rfl
  · rwa [Pool.eventsOf_append_other _ _ hij]

/-- Only a push fills an empty ring. -/
theorem count_ne_zero_of_step {env : UserEnv} {ring : Tring} {o : DrvOp} (hpush : ∀ rec, o ≠ .push rec)
    (hcount : (drvHandler o (env, ring)).2.2.count ≠ 0) : ring.count ≠ 0 := by
  intro hzero
  cases o with
  | push rec => exact hpush rec rfl
  | readLocked want =>
      simp only [drvHandler, if_pos hzero] at hcount
      exact hcount hzero
  | reset => exact hcount rfl
  | _ => exact hcount hzero

/-- In every reachable state a sleeper beside a filled ring has someone owing it a wake-up. -/
theorem wakeOwed_run {ι : Type} [DecidableEq ι] (calls : ι → List DrvCall) (envs : ι → UserEnv)
    (ring : Tring) (turns : List (Pick ι)) :
    let users := runUsers calls envs ring turns
    WakeOwed users.pool.log users.pool.shared users.asleep := by
  refine Dozing.shared_invariant WakeOwed ?_ ?_ ?_ ?_ ?_ turns
  · intro log ring asleep i o env hnever hK hfault hsleeper hcount
    by_cases hpush : ∃ rec, o = .push rec
    · obtain ⟨rec, rfl⟩ := hpush
      refine ⟨i, ?_⟩
      rw [Pool.eventsOf_append_self, owesAfter_append]
      rfl
    · push Not at hpush
      have hwake : o ≠ .wakeUp := by
        rintro rfl
        cases hnever
      obtain ⟨j, hj⟩ := hK (noLateFault_init hfault) hsleeper (count_ne_zero_of_step hpush hcount)
      exact ⟨j, owes_append hfault hwake hj⟩
  · rintro log ring asleep i o env hwakes hK hfault ⟨j, hj⟩
    cases hj
  · -- falling asleep takes an empty ring
    intro log ring asleep i o ready through interrupted hwaits hready hK hfault hsleeper hcount
    cases o with
    | waitEvent =>
        cases hwaits
        refine absurd ?_ hcount
        simpa using hready
    | _ => cases hwaits
  · rintro log ring asleep asleep' i o ready through interrupted ans hwaits hless hK hfault ⟨j, hj⟩ hcount
    have hwake : o ≠ .wakeUp := by
      rintro rfl
      cases hwaits
    obtain ⟨k, hk⟩ := hK (noLateFault_init hfault) ⟨j, hless j hj⟩ hcount
    exact ⟨k, owes_append hfault hwake hk⟩
  · rintro - ⟨i, hi⟩
    cases hi

/-- **Without late faults no reader is stranded.** In every reachable state in which no process is inside
`tlm_write`, and no write so far has faulted after pushing a record, nobody sleeps on the queue unless the
ring is empty. -/
theorem no_reader_stranded {ι : Type} [DecidableEq ι] (calls : ι → List DrvCall) (envs : ι → UserEnv)
    (ring : Tring) (turns : List (Pick ι)) :
    let users := runUsers calls envs ring turns
    (∀ i, NoLateFault false (Pool.eventsOf users.pool.log i)) →
    (∀ i, (users.pool.threads i).writing = false) →
    ∀ i, users.asleep i = true → users.pool.shared.count = 0 := by
  intro users hfault hnone i hasleep
  by_contra hcount
  obtain ⟨j, hj⟩ := wakeOwed_run calls envs ring turns hfault ⟨i, hasleep⟩ hcount
  have hstands : Pool.Stands tlmUser (calls j, []) (Pool.eventsOf users.pool.log j) (users.pool.threads j) :=
    Dozing.thread_stands (fun i => (calls i, [])) envs (tringInit ring) turns j
  have hwriting := writing_of_stands hstands (hfault j) hj
  exact absurd ((hnone j).symm.trans hwriting) Bool.false_ne_true

/-- A process that writes one record and one that reads twice. -/
def oneWriteTwoReads : Bool → List DrvCall
  | true => [.write 24 fun _ => ⟨7, 1, 0, 0, 0⟩]
  | false => [.read false 24, .read false 24]

/-- The write is over, the first read took its record and the second one sleeps. -/
theorem no_reader_stranded_drained :
    let users := runUsers oneWriteTwoReads (fun _ => ⟨[], []⟩) emptyRing
      ([true, true, true, false, false, false, false, false, false].map Pick.sched)
    users.asleep false = true ∧ users.pool.shared.count = 0 := by
  intro users
  have hasleep : users.asleep false = true := by decide +kernel
  exact ⟨hasleep, no_reader_stranded oneWriteTwoReads (fun _ => ⟨[], []⟩) emptyRing _ (by decide +kernel)
    (by decide +kernel) false hasleep⟩

/-- A write of two records, the second of which faults, next to a reader that went to sleep before: the
write has returned, a record is in the ring, and the reader sleeps on. -/
theorem reader_stranded_lateFault :
    let users := runUsers writerAndReader (fun _ => ⟨[true, false], []⟩) emptyRing
      ([false, false, true, true, true, true].map Pick.sched)
    (∀ i, (users.pool.threads i).writing = false) ∧ users.asleep false = true ∧
      users.pool.shared.count = 1 := by
  decide +kernel

end PulseLink
