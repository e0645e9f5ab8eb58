import PulseLink.TelemetryDrv

/-! What a call on `/dev/telemetry` returns, against what its own steps did to the ring while any other
processes use the device. `tlm_read` pops its records before it copies them out, and `tlm_write` pushes each
record before it fetches the next: a fault behind a pop or a push comes too late to take it back. -/

namespace PulseLink

/-- A negative return value. -/
def DrvResult.isError : DrvResult → Bool
  | .bytes _ => false
  | .zero => false
  | .einval => true
  | .efault => true
  | .eagain => true
  | .erestartsys => true

/-- No step of process `i` changes what `f` reads of the ring. -/
def CallKeeps {ι α : Type} [DecidableEq ι] (calls : ι → List DrvCall) (envs : ι → UserEnv) (ring : Tring)
    (schedule : List ι) (i : ι) (f : Tring → α) : Prop :=
  Pool.OwnStepsKeep tlmUser drvHandler (drvStart calls envs ring) schedule i f

/-! ### Reads -/

/-- What a read does while it finds no records. -/
def Unserved (e : Event DrvSig) : Prop := (∃ want, e = ⟨.readLocked want, none⟩) ∨ ∃ ok, e = ⟨.waitEvent, ok⟩

/-- How a read ends, with the events of the call: it found nothing and failed, it delivered what it took, or
it faulted with records in hand. -/
inductive ReadEnds : List (Event DrvSig) → DrvResult → Prop where
  | failed {t : List (Event DrvSig)} {r : DrvResult} (hunserved : ∀ e ∈ t, Unserved e)
      (herror : r.isError = true) : ReadEnds t r
  | served {t : List (Event DrvSig)} {r : DrvResult} (hcopied : ⟨.copyToUser, false⟩ ∉ t)
      (hok : r.isError = false) : ReadEnds t r
  | faulted {t : List (Event DrvSig)} {r : DrvResult} {want : Nat} {recs : List TelemetryRecord}
      (hfault : ⟨.copyToUser, false⟩ ∈ t) (herror : r.isError = true) (hwant : 0 < want)
      (htaken : ⟨.readLocked want, some recs⟩ ∈ t) : ReadEnds t r

theorem Unserved.not_fault {e : Event DrvSig} (hunserved : Unserved e) : e ≠ ⟨.copyToUser, false⟩ := by
  rintro rfl
  rcases hunserved with ⟨want, he⟩ | ⟨ok, he⟩
  · cases he
  · cases he

/-- Unserved events in front do not change how a read ends. -/
theorem ReadEnds.after {t₀ t : List (Event DrvSig)} {r : DrvResult} (hunserved : ∀ e ∈ t₀, Unserved e)
    (hends : ReadEnds t r) : ReadEnds (t₀ ++ t) r := by
  cases hends with
  | failed hrest herror =>
      refine .failed ?_ herror
      intro e he
      exact (List.mem_append.mp he).elim (hunserved e) (hrest e)
  | served hcopied hok =>
      refine .served ?_ hok
      intro hfault
      rcases List.mem_append.mp hfault with hbefore | hlater
      · exact (hunserved _ hbefore).not_fault rfl
      · exact hcopied hlater
  | faulted hfault herror hwant htaken =>
      exact .faulted (List.mem_append_right _ hfault) herror hwant (List.mem_append_right _ htaken)

/-- One try: it found nothing and goes round, or the read ends. -/
theorem readTry_path {nonblock : Bool} {len : Nat} {t : List (Event DrvSig)}
    {x : Option (DrvResult × List TelemetryRecord)} (hpath : (tlmReadTry nonblock len).Path t x) :
    (x = none ∧ ∀ e ∈ t, Unserved e) ∨ ∃ result, x = some result ∧ ReadEnds t result.1 := by
  by_cases hzero : len / REC_SZ = 0
  · rw [tlmReadTry, if_pos hzero] at hpath
    obtain ⟨rfl, rfl⟩ := Proc.path_ret_iff.mp hpath
    exact Or.inr ⟨_, rfl, .failed (by simp) rfl⟩
  rw [tlmReadTry, if_neg hzero] at hpath
  have hwant : 0 < readLimit len := by
    unfold readLimit
    split_ifs
    · exact Nat.pos_of_ne_zero hzero
    · decide
  obtain ⟨batch, t₁, rfl, hrest⟩ := Proc.path_op_iff.mp hpath
  cases batch with
  | none =>
      have hlocked : Unserved ⟨.readLocked (readLimit len), none⟩ := Or.inl ⟨_, rfl⟩
      cases nonblock with
      | true =>
          obtain ⟨rfl, rfl⟩ := Proc.path_ret_iff.mp hrest
          exact Or.inr ⟨_, rfl, .failed (List.forall_mem_singleton.mpr hlocked) rfl⟩
      | false =>
          obtain ⟨woken, t₂, rfl, hlast⟩ := Proc.path_op_iff.mp hrest
          obtain ⟨rfl, rfl⟩ := Proc.path_ret_iff.mp hlast
          have hunserved : ∀ e ∈ [(⟨.readLocked (readLimit len), none⟩ : Event DrvSig), ⟨.waitEvent, woken⟩],
              Unserved e := by
            intro e he
            rcases List.mem_cons.mp he with rfl | he
            · exact hlocked
            · exact Or.inr ⟨woken, List.mem_singleton.mp he⟩
          cases woken with
          | true => exact Or.inl ⟨rfl, hunserved⟩
          | false => exact Or.inr ⟨_, rfl, .failed hunserved rfl⟩
  | some recs =>
      obtain ⟨ok, t₂, rfl, hlast⟩ := Proc.path_op_iff.mp hrest
      cases ok with
      | true =>
          obtain ⟨done, t₃, rfl, hret⟩ := Proc.path_op_iff.mp hlast
          obtain ⟨rfl, rfl⟩ := Proc.path_ret_iff.mp hret
          exact Or.inr ⟨_, rfl, .served (by simp) rfl⟩
      | false =>
          obtain ⟨rfl, rfl⟩ := Proc.path_ret_iff.mp hlast
          exact Or.inr ⟨_, rfl, .faulted (List.mem_cons_of_mem _ List.mem_cons_self) rfl hwant List.mem_cons_self⟩

/-- A process that makes one read. -/
theorem read_path {nonblock : Bool} {len : Nat} {t : List (Event DrvSig)} {results : List DrvResult}
    (hpath : Loop.Path tlmUser ([.read nonblock len], []) t results) : ∃ r, results = [r] ∧ ReadEnds t r := by
  rw [← List.nil_append t]
  refine Loop.Path.invariant
    (J := fun s t => (s = ([.read nonblock len], []) ∧ ∀ e ∈ t, Unserved e) ∨ ∃ r, s = ([], [r]) ∧ ReadEnds t r)
    (Q := fun results t => ∃ r, results = [r] ∧ ReadEnds t r) ?_ (Or.inl ⟨rfl, by simp⟩) hpath
  rintro s t₀ t x (⟨rfl, hunserved⟩ | ⟨r, rfl, hends⟩) hturn
  · obtain ⟨t₁, mid, t₂, rfl, htry, hlast⟩ := Proc.path_bind_iff.mp hturn
    rcases readTry_path htry with ⟨rfl, hunserved'⟩ | ⟨result, rfl, hends⟩
    · obtain ⟨rfl, rfl⟩ := Proc.path_ret_iff.mp hlast
      refine Or.inl ⟨rfl, ?_⟩
      rw [List.append_nil]
      intro e he
      exact (List.mem_append.mp he).elim (hunserved e) (hunserved' e)
    · obtain ⟨rfl, rfl⟩ := Proc.path_ret_iff.mp hlast
      refine Or.inr ⟨result.1, rfl, ?_⟩
      rw [List.append_nil]
      exact hends.after hunserved
  · obtain ⟨rfl, rfl⟩ := Proc.path_ret_iff.mp hturn
    refine ⟨r, rfl, ?_⟩
    rw [List.append_nil]
    exact hends

theorem count_popUpTo (want : Nat) (r : Tring) :
    (tringPopUpTo want r).2.count.toNat = r.count.toNat - want := by
  induction want generalizing r with
  | zero => rfl
  | succ want ih =>
      by_cases hzero : r.count = 0
      · rw [tringPopUpTo, tringPop, if_pos hzero, hzero]
        exact (Nat.zero_sub _).symm
      · have hpos : (1 : UInt32) ≤ r.count := by
          rw [UInt32.le_iff_toNat_le]
          exact Nat.pos_of_ne_zero fun h => hzero (UInt32.toNat_inj.mp h)
        have hcount : (r.count - 1).toNat = r.count.toNat - 1 := UInt32.toNat_sub_of_le _ _ hpos
        rw [tringPopUpTo, tringPop, if_neg hzero]
        exact (ih _).trans (by rw [hcount, Nat.sub_sub, Nat.add_comm])

/-- Such an event leaves the ring. -/
theorem Unserved.keeps {e : Event DrvSig} (hunserved : Unserved e) {env : UserEnv} {ring : Tring}
    (he : e = ⟨e.op, (drvHandler e.op (env, ring)).1⟩) : (drvHandler e.op (env, ring)).2.2 = ring := by
  rcases hunserved with ⟨want, rfl⟩ | ⟨ok, rfl⟩
  · by_cases hzero : ring.count = 0
    · simp only [drvHandler, if_pos hzero]
    · simp only [drvHandler, if_neg hzero] at he
      cases he
  · rfl

/-- A section that took records has changed what is in the ring. -/
theorem taken_changes {want : Nat} (hwant : 0 < want) {recs : List TelemetryRecord} {env : UserEnv}
    {ring : Tring}
    (he : (⟨.readLocked want, some recs⟩ : Event DrvSig) =
      ⟨.readLocked want, (drvHandler (.readLocked want) (env, ring)).1⟩) :
    (drvHandler (.readLocked want) (env, ring)).2.2.contents ≠ ring.contents := by
  by_cases hzero : ring.count = 0
  · simp only [drvHandler, if_pos hzero] at he
    cases he
  · simp only [drvHandler, if_neg hzero]
    intro hsame
    have hlen := congrArg List.length hsame
    rw [Tring.length_contents, Tring.length_contents, count_popUpTo] at hlen
    have hpos : ring.count.toNat ≠ 0 := fun h => hzero (UInt32.toNat_inj.mp h)
    omega

/-- **A read that faults has lost its records; any other failed read has taken none.** A process makes one read
while any others use the device in any interleaving. If it fails then its steps leave the records of the ring
and their order as they are, if and only if no `copy_to_user` of the call faults. -/
theorem failed_read_keeps_iff {ι : Type} [DecidableEq ι] (calls : ι → List DrvCall) (envs : ι → UserEnv)
    (ring : Tring) (schedule : List ι) (i : ι) (nonblock : Bool) (len : Nat)
    (hcall : calls i = [.read nonblock len]) (r : DrvResult)
    (hdone : (drvRun calls envs ring schedule).threads i = .done [r]) :
    (r.isError = true → CallKeeps calls envs ring schedule i Tring.contents) ↔
      ⟨.copyToUser, false⟩ ∉ Pool.eventsOf (drvRun calls envs ring schedule).log i := by
  have hpath := path_of_done hdone
  rw [hcall] at hpath
  obtain ⟨r', hr, hends⟩ := read_path hpath
  obtain rfl : r = r' := List.singleton_inj.mp hr
  cases hends with
  | failed hunserved herror =>
      refine ⟨fun _ hfault => (hunserved _ hfault).not_fault rfl, fun _ _ => ?_⟩
      refine Pool.ownStepsKeep_of_events _ _ ?_
      intro e he env ring' hevent
      exact congrArg Tring.contents ((hunserved e he).keeps hevent)
  | served hcopied hok =>
      refine ⟨fun _ => hcopied, fun _ herror => ?_⟩
      rw [hok] at herror
      cases herror
  | faulted hfault herror hwant htaken =>
      refine ⟨fun hkeeps => absurd (hkeeps herror) ?_, fun hnot => absurd hfault hnot⟩
      exact Pool.not_ownStepsKeep_of_event _ _ rfl htaken fun env ring' hevent => taken_changes hwant hevent

/-- A ring with one record. -/
def oneRecordRing : Tring := (tringPush emptyRing ⟨7, 1, 0, 0, 0⟩).2

/-- A read whose copy faults: the record is in the ring before the call, and nowhere after it. -/
theorem faulted_read_loses_record :
    let calls : Unit → List DrvCall := fun _ => [.read true 24]
    let users := drvRun calls (fun _ => ⟨[false], []⟩) oneRecordRing [(), (), (), ()]
    users.threads () = .done [.efault] ∧ oneRecordRing.contents = [⟨7, 1, 0, 0, 0⟩] ∧
      users.shared.contents = [] ∧ users.shared.dropped = 0 :=
  ⟨rfl, by decide +kernel, by decide +kernel, by decide +kernel⟩

/-- A reader waits, two records are written, and a signal ends the read: the records stay. A reader whose copy faults
has taken the record of the ring. -/
theorem failed_read_keeps_iff_interrupted :
    let signalled : Bool → UserEnv := fun _ => ⟨[], [false]⟩
    let schedule := [false, true, true, true, true, true, false, false, false]
    let users := drvRun writerAndReader signalled emptyRing schedule
    (users.threads false = .done [.erestartsys] ∧ users.shared.count = 2 ∧
      CallKeeps writerAndReader signalled emptyRing schedule false Tring.contents) ∧
    ¬ CallKeeps (fun _ : Unit => [.read true 24]) (fun _ => ⟨[false], []⟩) oneRecordRing [(), (), (), ()] ()
        Tring.contents := by
  intro signalled schedule users
  constructor
  · have hiff := failed_read_keeps_iff writerAndReader signalled emptyRing schedule false false 100 rfl .erestartsys rfl
    have hevents : Pool.eventsOf users.log false = [⟨.readLocked 4, none⟩, ⟨.waitEvent, false⟩] := rfl
    rw [show drvRun writerAndReader signalled emptyRing schedule = users from rfl, hevents] at hiff
    exact ⟨rfl, by decide +kernel, hiff.mpr (by simp) rfl⟩
  · intro hkeeps
    have hiff := failed_read_keeps_iff (fun _ : Unit => [.read true 24]) (fun _ => ⟨[false], []⟩) oneRecordRing
      [(), (), (), ()] () true 24 rfl .efault rfl
    exact hiff.mp (fun _ => hkeeps) (List.mem_cons_of_mem _ List.mem_cons_self)

/-! ### Writes -/

/-- The answer of a user copy. -/
def copyOf : Event DrvSig → Option Bool
  | ⟨.copyFromUser, ok⟩ => some ok
  | ⟨.copyToUser, ok⟩ => some ok
  | _ => none

/-- The answers are the first of `copies`, and `rest` are those behind. -/
structure CopiesDrawn (copies answers rest : List Bool) : Prop where
  answers_eq : ∀ k < answers.length, answers[k]? = some (copies.getD k true)
  rest_eq : rest = copies.drop answers.length

theorem nextOk_eq (l : List Bool) : nextOk l = (l.getD 0 true, l.drop 1) := by
  cases l with
  | nil => rfl
  | cons ok rest => rfl

theorem copiesDrawn_nil (copies : List Bool) : CopiesDrawn copies [] copies := ⟨by simp, rfl⟩

theorem CopiesDrawn.next {copies answers rest : List Bool} (hcopies : CopiesDrawn copies answers rest) :
    CopiesDrawn copies (answers ++ [(nextOk rest).1]) (nextOk rest).2 := by
  rw [nextOk_eq, hcopies.rest_eq]
  constructor
  · intro k hk
    rw [List.length_append, List.length_singleton] at hk
    rcases Nat.lt_succ_iff_lt_or_eq.mp hk with hlt | rfl
    · rw [List.getElem?_append_left hlt]
      exact hcopies.answers_eq k hlt
    · rw [List.getElem?_concat_length]
      simp [List.getD_eq_getElem?_getD, List.getElem?_drop]
  · rw [List.drop_drop, List.length_append, List.length_singleton]

/-- Only the copies draw an answer. -/
theorem copies_step (o : DrvOp) (env : UserEnv) (ring : Tring) :
    (copyOf ⟨o, (drvHandler o (env, ring)).1⟩ = none ∧ (drvHandler o (env, ring)).2.1.copies = env.copies) ∨
      (copyOf ⟨o, (drvHandler o (env, ring)).1⟩ = some (nextOk env.copies).1 ∧
        (drvHandler o (env, ring)).2.1.copies = (nextOk env.copies).2) := by
  cases o with
  | copyFromUser => exact Or.inr ⟨rfl, rfl⟩
  | copyToUser => exact Or.inr ⟨rfl, rfl⟩
  | readLocked want =>
      refine Or.inl ⟨rfl, ?_⟩
      by_cases hzero : ring.count = 0
      · simp only [drvHandler, if_pos hzero]
      · simp only [drvHandler, if_neg hzero]
  | push rec => exact Or.inl ⟨rfl, rfl⟩
  | wakeUp => exact Or.inl ⟨rfl, rfl⟩
  | waitEvent => exact Or.inl ⟨rfl, rfl⟩
  | getStats => exact Or.inl ⟨rfl, rfl⟩
  | reset => exact Or.inl ⟨rfl, rfl⟩
  | delivered len recs => exact Or.inl ⟨rfl, rfl⟩

/-- The answers that each process gets to its copies are those of its environment, in order. -/
theorem copiesDrawn_run {ι : Type} [DecidableEq ι] (calls : ι → List DrvCall) (envs : ι → UserEnv) (ring : Tring)
    (schedule : List ι) (i : ι) :
    CopiesDrawn (envs i).copies ((Pool.eventsOf (drvRun calls envs ring schedule).log i).filterMap copyOf)
      ((drvRun calls envs ring schedule).locals i).copies := by
  refine Pool.run_invariant tlmUser drvHandler (fun users : DrvUsers ι =>
    ∀ i, CopiesDrawn (envs i).copies ((Pool.eventsOf users.log i).filterMap copyOf) (users.locals i).copies)
    ?_ (fun i => copiesDrawn_nil _) schedule i
  intro users j hcopies i
  rcases Pool.step_cases tlmUser drvHandler users j with ⟨hlocals, -, hlog⟩ | ⟨o, next, -, hstep⟩
  · rw [hlocals, hlog]
    exact hcopies i
  rw [hstep]
  by_cases hij : i = j
  · subst hij
    simp only [Function.update_self, Pool.eventsOf_append_self, List.filterMap_append]
    rcases copies_step o (users.locals i) users.shared with ⟨hnone, hsame⟩ | ⟨hsome, hnext⟩
    · rw [hsame, List.filterMap_cons_none hnone, List.filterMap_nil, List.append_nil]
      exact hcopies i
    · rw [hnext, List.filterMap_cons_some hsome, List.filterMap_nil]
      exact (hcopies i).next
  · simp only [Function.update_of_ne hij, Pool.eventsOf_append_other _ _ (Ne.symm hij)]
    exact hcopies i

/-- What the loop of `tlm_write` has done after `k` records, from number `i` on. -/
def wrote (ubuf : Nat → TelemetryRecord) : Nat → Nat → List (Event DrvSig)
  | _, 0 => []
  | i, k + 1 => ⟨.copyFromUser, true⟩ :: ⟨.push (ubuf i), ()⟩ :: wrote ubuf (i + 1) k

section Wrote

variable (ubuf : Nat → TelemetryRecord)

theorem copies_wrote (i k : Nat) : (wrote ubuf i k).filterMap copyOf = List.replicate k true := by
  induction k generalizing i with
  | zero => rfl
  | succ k ih => exact congrArg (true :: ·) (ih (i + 1))

theorem length_pushes_wrote (i k : Nat) : ((wrote ubuf i k).filterMap pushOf).length = k := by
  induction k generalizing i with
  | zero => rfl
  | succ k ih => exact congrArg (· + 1) (ih (i + 1))

/-- The loop goes through all records, or up to a fault. -/
theorem writeRecords_path {i n : Nat} {t : List (Event DrvSig)} {ok : Bool}
    (hpath : (writeRecords ubuf i n).Path t ok) :
    (ok = true ∧ t = wrote ubuf i n) ∨ ∃ k < n, ok = false ∧ t = wrote ubuf i k ++ [⟨.copyFromUser, false⟩] := by
  induction n generalizing i t with
  | zero =>
      obtain ⟨rfl, rfl⟩ := Proc.path_ret_iff.mp hpath
      exact Or.inl ⟨rfl, rfl⟩
  | succ n ih =>
      obtain ⟨copied, t₁, rfl, hrest⟩ := Proc.path_op_iff.mp hpath
      cases copied with
      | false =>
          obtain ⟨rfl, rfl⟩ := Proc.path_ret_iff.mp hrest
          exact Or.inr ⟨0, Nat.succ_pos n, rfl, rfl⟩
      | true =>
          obtain ⟨done, t₂, rfl, hloop⟩ := Proc.path_op_iff.mp hrest
          rcases ih hloop with ⟨rfl, rfl⟩ | ⟨k, hk, rfl, rfl⟩
          · exact Or.inl ⟨rfl, rfl⟩
          · exact Or.inr ⟨k + 1, Nat.succ_lt_succ hk, rfl, rfl⟩

end Wrote

/-- How a write of `n` records ends, with the events of the call: there was nothing to write, all records are in,
or the copy of record `k` faulted. -/
inductive WriteEnds (ubuf : Nat → TelemetryRecord) (n : Nat) : List (Event DrvSig) → DrvResult → Prop where
  | refused (hnone : n = 0) : WriteEnds ubuf n [] .einval
  | stored (hsome : n ≠ 0) : WriteEnds ubuf n (wrote ubuf 0 n ++ [⟨.wakeUp, ()⟩]) (.bytes (n * REC_SZ))
  | faulted {k : Nat} (hk : k < n) : WriteEnds ubuf n (wrote ubuf 0 k ++ [⟨.copyFromUser, false⟩]) .efault

theorem write_ends {len : Nat} {ubuf : Nat → TelemetryRecord} {t : List (Event DrvSig)} {r : DrvResult}
    (hpath : (tlmWrite len ubuf).Path t r) : WriteEnds ubuf (len / REC_SZ) t r := by
  by_cases hzero : len / REC_SZ = 0
  · rw [tlmWrite, if_pos hzero] at hpath
    obtain ⟨rfl, rfl⟩ := Proc.path_ret_iff.mp hpath
    exact .refused hzero
  rw [tlmWrite, if_neg hzero] at hpath
  obtain ⟨t₁, ok, t₂, rfl, hloop, hlast⟩ := Proc.path_bind_iff.mp hpath
  rcases writeRecords_path ubuf hloop with ⟨rfl, rfl⟩ | ⟨k, hk, rfl, rfl⟩
  · obtain ⟨done, t₃, rfl, hret⟩ := Proc.path_op_iff.mp hlast
    obtain ⟨rfl, rfl⟩ := Proc.path_ret_iff.mp hret
    exact .stored hzero
  · obtain ⟨rfl, rfl⟩ := Proc.path_ret_iff.mp hlast
    rw [List.append_nil]
    exact .faulted hk

/-- A process that makes one write. -/
theorem write_path {len : Nat} {ubuf : Nat → TelemetryRecord} {t : List (Event DrvSig)}
    {results : List DrvResult} (hpath : Loop.Path tlmUser ([.write len ubuf], []) t results) :
    ∃ r, results = [r] ∧ WriteEnds ubuf (len / REC_SZ) t r := by
  cases hpath with
  | stop hlast =>
      obtain ⟨t₁, r, t₂, -, -, hret⟩ := Proc.path_bind_iff.mp hlast
      cases hret
  | turn hfirst hrest =>
      obtain ⟨t₁, r, t₂, rfl, hwrite, hret⟩ := Proc.path_bind_iff.mp hfirst
      obtain ⟨rfl, hs⟩ := Proc.path_ret_iff.mp hret
      cases hs
      cases hrest with
      | stop hlast =>
          obtain ⟨rfl, hresults⟩ := Proc.path_ret_iff.mp hlast
          refine ⟨r, Sum.inr.inj hresults, ?_⟩
          rw [List.append_nil, List.append_nil]
          exact write_ends hwrite
      | turn hmore _ => cases hmore

/-! ### The faults of a request -/

section Faults

variable {copies answers rest : List Bool} {k n : Nat}

/-- Copies that went through. -/
theorem CopiesDrawn.getD_true (hcopies : CopiesDrawn copies (List.replicate k true ++ answers) rest) :
    ∀ j < k, copies.getD j true = true := by
  intro j hj
  have hanswer := hcopies.answers_eq j (by rw [List.length_append, List.length_replicate]; omega)
  rw [List.getElem?_append_left (by rwa [List.length_replicate]), List.getElem?_replicate_of_lt hj] at hanswer
  exact (Option.some.inj hanswer).symm

/-- The copy that did not. -/
theorem CopiesDrawn.getD_false (hcopies : CopiesDrawn copies (List.replicate k true ++ [false]) rest) :
    copies.getD k true = false := by
  have hanswer := hcopies.answers_eq k
    (by rw [List.length_append, List.length_replicate]; exact Nat.lt_succ_self k)
  rw [List.getElem?_append_right (by rw [List.length_replicate]), List.length_replicate, Nat.sub_self] at hanswer
  exact (Option.some.inj hanswer).symm

theorem mem_take_of_getD (hk : k < n) (hfalse : copies.getD k true = false) : false ∈ copies.take n := by
  have hget : copies[k]? = some false := by
    rw [List.getD_eq_getElem?_getD] at hfalse
    cases hcopy : copies[k]? with
    | none =>
        rw [hcopy] at hfalse
        cases hfalse
    | some ok =>
        rw [hcopy] at hfalse
        exact congrArg some hfalse
  refine List.mem_iff_getElem?.mpr ⟨k, ?_⟩
  rw [List.getElem?_take_of_lt hk, hget]

theorem not_mem_take_of_getD (htrue : ∀ j < n, copies.getD j true = true) : false ∉ copies.take n := by
  intro hmem
  obtain ⟨j, hj⟩ := List.mem_iff_getElem?.mp hmem
  have hlt : j < n := by
    obtain ⟨hlen, -⟩ := List.getElem?_eq_some_iff.mp hj
    rw [List.length_take] at hlen
    omega
  have hok := htrue j hlt
  rw [List.getElem?_take_of_lt hlt] at hj
  rw [List.getD_eq_getElem?_getD, hj] at hok
  cases hok

theorem head?_eq_some_false : copies.head? = some false ↔ copies.getD 0 true = false := by
  cases copies with
  | nil => simp
  | cons ok rest => simp

end Faults

section WriteEnds

variable {ubuf : Nat → TelemetryRecord} {n : Nat} {t : List (Event DrvSig)} {r : DrvResult}
  {copies rest : List Bool}

/-- A write that returns a count has pushed that many records. -/
theorem WriteEnds.bytes_eq (hends : WriteEnds ubuf n t r) (hok : r.isError = false) :
    1 ≤ (t.filterMap pushOf).length ∧ r = .bytes (24 * (t.filterMap pushOf).length) := by
  cases hends with
  | refused hnone => cases hok
  | stored hsome =>
      rw [List.filterMap_append, List.length_append, length_pushes_wrote, Nat.mul_comm]
      exact ⟨Nat.pos_of_ne_zero hsome, rfl⟩
  | faulted hk => cases hok

/-- A write that fails without a push has done nothing else. -/
theorem WriteEnds.events_subset (hends : WriteEnds ubuf n t r) (herror : r.isError = true)
    (hnone : t.filterMap pushOf = []) : t ⊆ [⟨.copyFromUser, false⟩] := by
  cases hends with
  | refused _ => exact List.nil_subset _
  | stored _ => cases herror
  | @faulted k hk =>
      have hlen := congrArg List.length hnone
      rw [List.filterMap_append, List.length_append, length_pushes_wrote] at hlen
      obtain rfl : k = 0 := hlen
      exact List.Subset.refl _

/-- A write fails with records pushed exactly if a copy behind the first one is the first to fault. -/
theorem WriteEnds.unpushed_iff (hends : WriteEnds ubuf n t r)
    (hcopies : CopiesDrawn copies (t.filterMap copyOf) rest) :
    (r.isError = true → t.filterMap pushOf = []) ↔ (false ∉ copies.take n ∨ copies.head? = some false) := by
  cases hends with
  | refused hnone => simp [hnone]
  | stored hsome =>
      rw [List.filterMap_append, copies_wrote] at hcopies
      exact ⟨fun _ => Or.inl (not_mem_take_of_getD hcopies.getD_true), fun _ herror => by cases herror⟩
  | @faulted k hk =>
      rw [List.filterMap_append, copies_wrote] at hcopies
      have hpushes : List.filterMap pushOf (wrote ubuf 0 k ++ [⟨.copyFromUser, false⟩]) = [] ↔ k = 0 := by
        rw [← List.length_eq_zero_iff, List.filterMap_append, List.length_append, length_pushes_wrote]
        rfl
      have hlate : false ∉ copies.take n ∨ copies.head? = some false ↔ k = 0 := by
        constructor
        · rintro (hnone | hhead)
          · exact absurd (mem_take_of_getD hk hcopies.getD_false) hnone
          · by_contra hpos
            rw [head?_eq_some_false, hcopies.getD_true 0 (Nat.pos_of_ne_zero hpos)] at hhead
            cases hhead
        · rintro rfl
          exact Or.inr (head?_eq_some_false.mpr hcopies.getD_false)
      rw [hlate, ← hpushes]
      exact ⟨fun h => h rfl, fun h _ => h⟩

end WriteEnds

/-- **A write that faults behind its first record has stored the records before.** A process makes one write
while any others use the device in any interleaving. It returns 24 times the number of records it pushed, at
least one, or it fails having pushed none and with `produced` and `dropped` as they were, if and only if none of
the copies for the records of the request faults or the very first one does. -/
theorem write_reports_stored_iff {ι : Type} [DecidableEq ι] (calls : ι → List DrvCall) (envs : ι → UserEnv)
    (ring : Tring) (schedule : List ι) (i : ι) (len : Nat) (ubuf : Nat → TelemetryRecord)
    (hcall : calls i = [.write len ubuf]) (r : DrvResult)
    (hdone : (drvRun calls envs ring schedule).threads i = .done [r]) :
    let pushed := (Pool.eventsOf (drvRun calls envs ring schedule).log i).filterMap pushOf
    ((1 ≤ pushed.length ∧ r = .bytes (24 * pushed.length)) ∨
        (r.isError = true ∧ pushed = [] ∧
          CallKeeps calls envs ring schedule i fun ring => (ring.produced, ring.dropped))) ↔
      (false ∉ (envs i).copies.take (len / 24) ∨ (envs i).copies.head? = some false) := by
  intro pushed
  have hpath := path_of_done hdone
  rw [hcall] at hpath
  obtain ⟨r', hr, hends⟩ := write_path hpath
  obtain rfl : r = r' := List.singleton_inj.mp hr
  have hunpushed := hends.unpushed_iff (copiesDrawn_run calls envs ring schedule i)
  refine Iff.trans ?_ hunpushed
  constructor
  · rintro (⟨-, hbytes⟩ | ⟨-, hnone, -⟩) herror
    · rw [hbytes] at herror
      cases herror
    · exact hnone
  · intro hclean
    cases herror : r.isError with
    | false => exact Or.inl (hends.bytes_eq herror)
    | true =>
        refine Or.inr ⟨rfl, hclean herror, ?_⟩
        refine Pool.ownStepsKeep_of_events _ _ ?_
        intro e he env ring' _
        obtain rfl := List.mem_singleton.mp (hends.events_subset herror (hclean herror) he)
        rfl

/-- The second copy of a write faults: the call fails, and the first record is in the ring. -/
theorem faulted_write_stores_record :
    let calls : Unit → List DrvCall := fun _ => [.write 48 fun i => ⟨7, UInt32.ofNat i, 0, 0, 0⟩]
    let users := drvRun calls (fun _ => ⟨[true, false], []⟩) emptyRing [(), (), (), (), ()]
    users.threads () = .done [.efault] ∧ users.shared.contents = [⟨7, 0, 0, 0, 0⟩] ∧
      users.shared.produced = 1 :=
  ⟨rfl, by decide +kernel, by decide +kernel⟩

/-- Without faults both records are in, and 48 is returned. -/
theorem write_reports_stored_iff_two :
    let calls : Unit → List DrvCall := fun _ => [.write 48 fun i => ⟨7, UInt32.ofNat i, 0, 0, 0⟩]
    let users := drvRun calls (fun _ => ⟨[true, true], []⟩) emptyRing [(), (), (), (), (), (), ()]
    ((Pool.eventsOf users.log ()).filterMap pushOf).length = 2 := by
  intro calls users
  have hreports := write_reports_stored_iff calls (fun _ => ⟨[true, true], []⟩) emptyRing
    [(), (), (), (), (), (), ()] () 48 _ rfl (.bytes 48) rfl
  rcases hreports.mpr (Or.inl (by decide)) with ⟨-, hbytes⟩ | ⟨herror, -⟩
  · exact Nat.eq_of_mul_eq_mul_left (by decide) (DrvResult.bytes.inj hbytes).symm
  · cases herror

end PulseLink
