import PulseLink.Session
import PulseLink.Ticks
import PulseLink.WorkerPath
import PulseLink.WorkerRun

/-! Dead peers. While the server runs, a worker leaves its loop after finitely many turns: a turn that goes on
has either read a whole header, which uses up bytes of the script, or has waited in vain, which happens at most
14 times in a row. The fifteenth time in a row is what ends a connection for idleness. A script ends in
timeouts, end of file or errors for ever; one that mixed them would be cut at its first end of file or error,
since that ends the worker. -/

namespace PulseLink

/-! ### Reading uses up the script -/

/-- Every byte `read_n` stores comes out of the script. -/
theorem readN_size (after : Afterwards) (n : Nat) (got : List UInt8) (script : List Recv) :
    scriptSize (readN after n got script).2 + (readN after n got script).1.got.length ≤
      scriptSize script + got.length := by
  fun_induction readN after n got script with
  | case1 | case2 | case3 | case4 => exact Nat.le_refl _
  | case5 got rest hmore ih =>
      rw [scriptSize_cons]
      omega
  | case6 got rest hmore | case7 got rest hmore | case8 got rest hmore =>
      show scriptSize rest + got.length ≤ _
      rw [scriptSize_cons]
      omega
  | case9 got rest hmore b bs hfits ih =>
      rw [List.length_append, List.length_cons] at ih
      rw [scriptSize_cons, Recv.size]
      omega
  | case10 got rest hmore b bs hlong =>
      rw [List.length_cons] at hlong
      rw [scriptSize_unread, scriptSize_cons, Recv.size, ReadResult.got, List.length_append, List.length_take,
        List.length_drop, List.length_cons]
      omega
  | case11 got r rest hfull => exact Nat.le_refl _

theorem readN_got (after : Afterwards) (n : Nat) (got : List UInt8) (script : List Recv) :
    got.length ≤ (readN after n got script).1.got.length := by
  fun_induction readN after n got script with
  | case5 got rest hmore ih => exact ih
  | case9 got rest hmore b bs hfits ih => exact (List.length_append ▸ Nat.le_add_right _ _).trans ih
  | case10 got rest hmore b bs hlong =>
      rw [ReadResult.got, List.length_append]
      exact Nat.le_add_right _ _
  | _ => exact Nat.le_refl _

/-- A read that has not got its bytes yet takes something off the script. -/
theorem readN_uses (after : Afterwards) {n : Nat} {got : List UInt8} (hgot : got.length < n) (x : Recv)
    (rest : List Recv) : scriptSize (readN after n got (x :: rest)).2 < scriptSize (x :: rest) := by
  have hle : ∀ got', scriptSize (readN after n got' rest).2 ≤ scriptSize rest := by
    intro got'
    have hsize := readN_size after n got' rest
    have hmore := readN_got after n got' rest
    omega
  have hpos := x.size_pos
  cases x with
  | eintr =>
      rw [readN, if_pos hgot, scriptSize_cons]
      exact (hle got).trans_lt (Nat.lt_add_of_pos_left hpos)
  | data b bs =>
      rw [readN, if_pos hgot, scriptSize_cons]
      split_ifs
      · exact (hle _).trans_lt (Nat.lt_add_of_pos_left hpos)
      · rw [scriptSize_unread, List.length_drop, Recv.size, List.length_cons]
        omega
  | _ =>
      rw [readN, if_pos hgot, scriptSize_cons]
      exact Nat.lt_add_of_pos_left hpos

/-- No operation makes the script longer. -/
theorem scriptSize_step (o : ServerOp) (w : World) :
    scriptSize (serverHandler o w).2.1.script ≤ scriptSize w.1.script := by
  obtain ⟨conn, ctx⟩ := w
  cases o with
  | readN n =>
      have hsize := readN_size conn.after n [] conn.script
      exact Nat.le_of_add_right_le hsize
  | writeFile path bytes =>
      simp only [serverHandler]
      split <;> exact Nat.le_refl _
  | _ => exact Nat.le_refl _

theorem scriptSize_runs {α : Type} {p : ServerProc α} {w w' : World} {value : α} {t : List (Event ServerSig)}
    (hruns : Does p w value w' t) : scriptSize w'.1.script ≤ scriptSize w.1.script :=
  hruns.invariant (J := fun w₁ => scriptSize w₁.1.script ≤ scriptSize w.1.script)
    (fun o w₁ hle => (scriptSize_step o w₁).trans hle) (Nat.le_refl _)

/-! ### Every turn makes progress -/

/-- What follows a header leaves the ticks alone. -/
theorem handleHeader_ticks {cfg : Config} {l l' : Locals} {h : PlHeader} {t : List (Event ServerSig)}
    (hpath : (handleHeader cfg l h).Path t (.inl l')) : l'.idleTicks = l.idleTicks := by
  obtain ⟨_, _, -, -, ⟨-, hx⟩ | ⟨payload, hdecides⟩⟩ := handleHeader_decides hpath
  · cases hx
  · exact hdecides.idleTicks

/-- What is left to do: bytes and other outcomes of the script, then timeouts until the worker gives up. -/
def Locals.patience (l : Locals) (script : List Recv) : Nat := scriptSize script * 16 + (15 - l.idleTicks)

/-- A turn that goes on has used up a header, or one more of the 14 timeouts. -/
theorem turn_progress {cfg : Config} {l l' : Locals} {conn : Conn} {ctx : ServerCtx} {w' : World}
    {t : List (Event ServerSig)} (hstop : ctx.choices.stop = none)
    (hturn : Does (clientTurn cfg l) (conn, ctx) (.inl l') w' t) :
    l'.patience w'.1.script < l.patience conn.script := by
  by_cases hstate : l.state = .closing
  · have hclosing : Does (clientTurn cfg l) (conn, ctx) (.inr .closing) (conn, ctx) [⟨.loadRunning, true⟩] :=
      turn_closing hstop hstate
    cases hclosing.symm.trans hturn
  rcases hread : readN conn.after PL_HDR_SIZE [] conn.script with ⟨r, rest⟩
  have hsize := readN_size conn.after PL_HDR_SIZE [] conn.script
  rw [hread, List.length_nil] at hsize
  have hafter := turn_read cfg l hstop hstate hread
    (Proc.runs_exec serverHandler (afterRead cfg l r) ({ conn with script := rest }, ctx))
  obtain ⟨hvalue, hworld, -⟩ := Outcome.mk.inj (hturn.symm.trans hafter)
  have hlast := Proc.runs_exec serverHandler (afterRead cfg l r) ({ conn with script := rest }, ctx)
  rw [← hvalue, ← hworld] at hlast
  have hrest := scriptSize_runs hlast
  have hpath := hlast.path
  simp only [Locals.patience]
  cases r with
  | again got =>
      rw [afterRead] at hpath
      split_ifs at hpath with hidle
      · cases (Proc.path_ret_iff.mp hpath).2
      · cases (Proc.path_ret_iff.mp hpath).2
        have hfew : (l.idleTicks + 1) * 2 < 30 := Nat.not_le.mp hidle
        simp only at hrest hsize ⊢
        omega
  | failed got => cases (Proc.path_ret_iff.mp hpath).2
  | count got =>
      rw [afterRead] at hpath
      split_ifs at hpath with hclosed hmid
      · cases (Proc.path_ret_iff.mp hpath).2
      · cases (Proc.path_ret_iff.mp hpath).2
      · have hticks : l'.idleTicks = 0 := handleHeader_ticks hpath
        have hsome : 0 < got.length := Nat.pos_of_ne_zero hclosed
        simp only [ReadResult.got] at hrest hsize
        rw [hticks]
        omega

/-- What is left to do at each place of a worker. -/
def WorkerPc.remaining : WorkerPc → World → Nat
  | .enter _, w => scriptSize w.1.script * 16 + 17
  | .running l, w => l.patience w.1.script + 1
  | .leave _, _ => 0

theorem worker_progress {cfg : Config} {pc pc' : WorkerPc} {w w' : World} {t : List (Event ServerSig)}
    (hstop : w.2.choices.stop = none) (hturn : Does (clientWorker cfg pc) w (.inl pc') w' t) :
    pc'.remaining w' < pc.remaining w := by
  obtain ⟨conn, ctx⟩ := w
  cases pc with
  | enter payload =>
      cases hturn
      show scriptSize conn.script * 16 + (15 - 0) + 1 < scriptSize conn.script * 16 + 17
      omega
  | leave why => cases hturn
  | running l =>
      rcases hexec : (clientTurn cfg l).exec serverHandler (conn, ctx) with ⟨x, w₁, t₁⟩
      have hdoes := (show Does (clientTurn cfg l) (conn, ctx) x w₁ t₁ from hexec).bind
        (f := fun turn => .ret (WorkerPc.next turn)) (.ret _ _)
      obtain ⟨hvalue, rfl, -⟩ := Outcome.mk.inj (hturn.symm.trans hdoes)
      cases x with
      | inl l' =>
          cases hvalue
          exact Nat.succ_lt_succ (turn_progress hstop hexec)
      | inr why =>
          cases why with
          | crash => cases hvalue
          | _ =>
              cases hvalue
              exact Nat.succ_pos _

/-- While the server runs, every worker leaves, wherever it is. -/
theorem worker_ends (cfg : Config) (pc : WorkerPc) {w : World} (hstop : w.2.choices.stop = none) :
    ∃ out, Loop.Ends (clientWorker cfg) serverHandler pc w out := by
  refine Loop.ends_of_measure (J := fun _ w => w.2.choices.stop = none) WorkerPc.remaining ?_ hstop
  intro pc w pc' w' t hrunning hturn
  have hdoes : Does (clientWorker cfg pc) w (.inl pc') w' t := hturn
  exact ⟨stop_runs hrunning hdoes, worker_progress hrunning hdoes⟩

/-! ### The reads of headers -/

/-- The event is a look at `running`. -/
def looks : Event ServerSig → Bool
  | ⟨.loadRunning, _⟩ => true
  | _ => false

/-- The result of a read of a header, which comes right behind a look at `running`; other reads are of
payloads. -/
def readBehind : Bool → Event ServerSig → Option ReadResult
  | true, ⟨.readN _, r⟩ => some r
  | _, _ => none

/-- The results of the reads of headers in `t`, in order, `looked` telling whether a look came right before. -/
def headerReadsFrom : Bool → List (Event ServerSig) → List ReadResult
  | _, [] => []
  | looked, e :: t => (readBehind looked e).toList ++ headerReadsFrom (looks e) t

def headerReads (t : List (Event ServerSig)) : List ReadResult := headerReadsFrom false t

def ReadResult.timedOut : ReadResult → Bool
  | .again _ => true
  | _ => false

/-- How many of the last reads have timed out in a row. -/
def ticks (reads : List ReadResult) : Nat := reads.foldl (fun n r => if r.timedOut then n + 1 else 0) 0

theorem ticks_concat (reads : List ReadResult) (r : ReadResult) :
    ticks (reads ++ [r]) = if r.timedOut then ticks reads + 1 else 0 := by
  rw [ticks, List.foldl_append]
  rfl

/-- So many in a row at the end. -/
theorem ticks_eq (reads : List ReadResult) :
    ∃ before late, reads = before ++ late ∧ late.length = ticks reads ∧ ∀ r ∈ late, r.timedOut = true := by
  induction reads using List.reverseRecOn with
  | nil => exact ⟨[], [], rfl, rfl, nofun⟩
  | append_singleton reads r ih =>
      obtain ⟨before, late, hreads, hlength, hlate⟩ := ih
      rw [ticks_concat]
      by_cases hr : r.timedOut = true
      · refine ⟨before, late ++ [r], ?_, ?_, ?_⟩
        · rw [hreads, List.append_assoc]
        · rw [List.length_append, hlength, if_pos hr]
          rfl
        · intro r' hr'
          rcases List.mem_append.mp hr' with hold | hnew
          · exact hlate r' hold
          · rwa [List.mem_singleton.mp hnew]
      · exact ⟨reads ++ [r], [], (List.append_nil _).symm, (if_neg hr).symm, nofun⟩

theorem length_le_ticks (before : List ReadResult) {late : List ReadResult}
    (hlate : ∀ r ∈ late, r.timedOut = true) :
    late.length ≤ ticks (before ++ late) := by
  induction late using List.reverseRecOn with
  | nil => exact Nat.zero_le _
  | append_singleton late r ih =>
      have hr : r.timedOut = true := hlate r (List.mem_append_right _ (List.mem_singleton_self r))
      have hle := ih fun r' hr' => hlate r' (List.mem_append_left _ hr')
      rw [← List.append_assoc, ticks_concat, if_pos hr, List.length_append]
      exact Nat.succ_le_succ hle

/-- A look at `running` separates what comes before it from what follows. -/
theorem headerReads_append (t rest : List (Event ServerSig)) (running : Bool) :
    headerReads (t ++ ⟨.loadRunning, running⟩ :: rest) = headerReads t ++ headerReadsFrom true rest := by
  suffices hfrom : ∀ looked, headerReadsFrom looked (t ++ ⟨.loadRunning, running⟩ :: rest) =
      headerReadsFrom looked t ++ headerReadsFrom true rest from hfrom false
  induction t with
  | nil => exact fun looked => by cases looked <;> rfl
  | cons e t ih =>
      intro looked
      rw [List.cons_append, headerReadsFrom, headerReadsFrom, ih, List.append_assoc]

/-- Events that receive nothing are no reads of headers. -/
theorem headerReads_quiet (t : List (Event ServerSig)) {rest : List (Event ServerSig)}
    (hrest : ∀ e ∈ rest, ¬ Receives e.op) (looked : Bool) :
    headerReadsFrom looked (t ++ rest) = headerReadsFrom looked t := by
  induction t generalizing looked with
  | cons e t ih => rw [List.cons_append, headerReadsFrom, headerReadsFrom, ih]
  | nil =>
      induction rest generalizing looked with
      | nil => rfl
      | cons e rest ih =>
          have hnone : readBehind looked e = none := by
            have he := hrest e List.mem_cons_self
            obtain ⟨o, ans⟩ := e
            cases o <;> first | exact absurd trivial he | (cases looked <;> rfl)
          show (readBehind looked e).toList ++ headerReadsFrom (looks e) rest = []
          rw [hnone]
          exact ih (fun e' he' => hrest e' (List.mem_cons_of_mem _ he')) _

/-! ### Idleness -/

theorem headerReadsFrom_unlooked {t : List (Event ServerSig)} (ht : ∀ e ∈ t, e.op ≠ .loadRunning) :
    headerReadsFrom false t = [] := by
  induction t with
  | nil => rfl
  | cons e t ih =>
      have hlooks : looks e = false := by
        have he := ht e List.mem_cons_self
        obtain ⟨o, ans⟩ := e
        cases o <;> first | exact absurd rfl he | rfl
      rw [headerReadsFrom, hlooks, ih fun e' he' => ht e' (List.mem_cons_of_mem _ he')]
      rfl

/-- What a turn can add to the reads of headers. -/
inductive HeaderTurn (l : Locals) : List ReadResult → Turn → Prop where
  | none {why : ExitReason} (hwhy : why ≠ .idle) : HeaderTurn l [] (.inr why)
  | tick {r : ReadResult} (hr : r.timedOut = true) (hfew : l.idleTicks + 1 < 15) :
      HeaderTurn l [r] (.inl { l with idleTicks := l.idleTicks + 1 })
  | idle {r : ReadResult} (hr : r.timedOut = true) (hmany : 15 ≤ l.idleTicks + 1) : HeaderTurn l [r] (.inr .idle)
  | other {r : ReadResult} {x : Turn} (hr : r.timedOut = false) (hx : x ≠ .inr .idle)
      (hticks : ∀ l', x = .inl l' → l'.idleTicks = 0) : HeaderTurn l [r] x

/-- What follows a header is no idleness. -/
theorem handleHeader_not_idle {cfg : Config} {l : Locals} {h : PlHeader} {t : List (Event ServerSig)} {x : Turn}
    (hpath : (handleHeader cfg l h).Path t x) : x ≠ .inr .idle := by
  rintro rfl
  obtain ⟨_, _, -, -, ⟨-, hx⟩ | ⟨payload, hdecides⟩⟩ := handleHeader_decides hpath
  · cases hx
  · exact absurd hdecides.exit_mem (by decide)

theorem clientTurn_reads {cfg : Config} {l : Locals} {turn : List (Event ServerSig)} {x : Turn}
    (hpath : (clientTurn cfg l).Path turn x) :
    ∃ running rest, turn = ⟨.loadRunning, running⟩ :: rest ∧ HeaderTurn l (headerReadsFrom true rest) x := by
  rw [clientTurn_eq] at hpath
  obtain ⟨running, rest, rfl, hturn⟩ := path_ask_iff.mp hpath
  refine ⟨running, rest, rfl, ?_⟩
  by_cases hrunning : running = false
  · rw [if_pos hrunning] at hturn
    obtain ⟨rfl, rfl⟩ := Proc.path_ret_iff.mp hturn
    exact .none (by simp)
  rw [if_neg hrunning] at hturn
  by_cases hstate : l.state = .closing
  · rw [if_pos hstate] at hturn
    obtain ⟨rfl, rfl⟩ := Proc.path_ret_iff.mp hturn
    exact .none (by simp)
  rw [if_neg hstate] at hturn
  obtain ⟨r, rest, rfl, hafter⟩ := path_ask_iff.mp hturn
  cases r with
  | failed got =>
      obtain ⟨rfl, rfl⟩ := Proc.path_ret_iff.mp hafter
      exact .other rfl (by simp) (by simp)
  | again got =>
      rw [afterRead] at hafter
      split_ifs at hafter with hidle
      · obtain ⟨rfl, rfl⟩ := Proc.path_ret_iff.mp hafter
        have hmany : 30 ≤ (l.idleTicks + 1) * 2 := hidle
        exact .idle rfl (by omega)
      · obtain ⟨rfl, rfl⟩ := Proc.path_ret_iff.mp hafter
        have hfew : (l.idleTicks + 1) * 2 < 30 := Nat.not_le.mp hidle
        exact .tick rfl (by omega)
  | count got =>
      rw [afterRead] at hafter
      split_ifs at hafter with hclosed hmid
      · obtain ⟨rfl, rfl⟩ := Proc.path_ret_iff.mp hafter
        exact .other rfl (by simp) (by simp)
      · obtain ⟨rfl, rfl⟩ := Proc.path_ret_iff.mp hafter
        exact .other rfl (by simp) (by simp)
      · have hreads : headerReadsFrom true (⟨.readN PL_HDR_SIZE, .count got⟩ :: rest) = [.count got] := by
          rw [headerReadsFrom, show looks ⟨.readN PL_HDR_SIZE, .count got⟩ = false from rfl,
            headerReadsFrom_unlooked fun e he => (((handleHeader_turning cfg _ _).path hafter).1 e he).1.2]
          rfl
        rw [hreads]
        refine .other rfl (handleHeader_not_idle hafter) ?_
        rintro l' rfl
        exact handleHeader_ticks hafter

/-- The last 15 of these reads have timed out. -/
def Lapsed (reads : List ReadResult) : Prop :=
  ∃ before late, reads = before ++ late ∧ late.length = 15 ∧ ∀ r ∈ late, r.timedOut = true

theorem lapsed_iff {reads : List ReadResult} : Lapsed reads ↔ 15 ≤ ticks reads := by
  constructor
  · rintro ⟨before, late, rfl, hlength, hlate⟩
    exact hlength ▸ length_le_ticks before hlate
  · intro hmany
    obtain ⟨before, late, hreads, hlength, hlate⟩ := ticks_eq reads
    refine ⟨before ++ late.take (late.length - 15), late.drop (late.length - 15), ?_, ?_, ?_⟩
    · rw [List.append_assoc, List.take_append_drop, hreads]
    · rw [List.length_drop]
      omega
    · exact fun r hr => hlate r (List.mem_of_mem_drop hr)

/-- A worker whose reads of headers returned this leaves for idleness exactly if the last 15 have timed out, and
there is no later read than the fifteenth in a row. -/
def IdleExactly (why : ExitReason) (reads : List ReadResult) : Prop :=
  (why = .idle ↔ Lapsed reads) ∧ ∀ before after, reads = before ++ after → Lapsed before → after = []

/-- `idle_ticks` counts the timeouts since the last header, and was never 15. -/
structure Ticking (l : Locals) (t : List (Event ServerSig)) : Prop where
  count : l.idleTicks = ticks (headerReads t)
  few : ∀ before after, headerReads t = before ++ after → ticks before < 15

theorem Ticking.lt {l : Locals} {t : List (Event ServerSig)} (hticking : Ticking l t) : l.idleTicks < 15 := by
  rw [hticking.count]
  exact hticking.few _ [] (List.append_nil _).symm

/-- The prefixes of one read more. -/
theorem reads_split_concat {reads before after : List ReadResult} {r : ReadResult}
    (hsplit : reads ++ [r] = before ++ after) :
    (∃ after', reads = before ++ after') ∨ (before = reads ++ [r] ∧ after = []) := by
  rcases List.eq_nil_or_concat' after with rfl | ⟨after', r', rfl⟩
  · exact Or.inr ⟨(hsplit.trans (List.append_nil _)).symm, rfl⟩
  · rw [← List.append_assoc] at hsplit
    exact Or.inl ⟨after', (List.append_inj' hsplit rfl).1⟩

theorem Ticking.turn {cfg : Config} {l l' : Locals} {t turn : List (Event ServerSig)} (hticking : Ticking l t)
    (hpath : (clientTurn cfg l).Path turn (.inl l')) : Ticking l' (t ++ turn) := by
  obtain ⟨running, rest, rfl, hheader⟩ := clientTurn_reads hpath
  have hreads := headerReads_append t rest running
  generalize headerReadsFrom true rest = added at hreads hheader
  have hfew : ∀ {r : ReadResult}, added = [r] → ticks (headerReads t ++ [r]) < 15 →
      ∀ before after, headerReads (t ++ ⟨.loadRunning, running⟩ :: rest) = before ++ after →
        ticks before < 15 := by
    rintro r rfl hnew before after hsplit
    rw [hreads] at hsplit
    rcases reads_split_concat hsplit with ⟨after', hold⟩ | ⟨rfl, -⟩
    · exact hticking.few before after' hold
    · exact hnew
  cases hheader with
  | @tick r hr hfewer =>
      have hcount : ticks (headerReads t ++ [r]) = l.idleTicks + 1 := by
        rw [ticks_concat, if_pos hr, hticking.count]
      exact ⟨by rw [hreads, hcount], hfew rfl (hcount.trans_lt hfewer)⟩
  | @other r _ hr _ hticks =>
      have hcount : ticks (headerReads t ++ [r]) = 0 := by
        rw [ticks_concat, if_neg (by rw [hr]; decide)]
      exact ⟨by rw [hreads, hcount, hticks l' rfl], hfew rfl (hcount.trans_lt (by decide))⟩

theorem Ticking.exit {cfg : Config} {l : Locals} {t turn : List (Event ServerSig)} {why : ExitReason}
    (hticking : Ticking l t) (hpath : (clientTurn cfg l).Path turn (.inr why)) :
    IdleExactly why (headerReads (t ++ turn)) := by
  obtain ⟨running, rest, rfl, hheader⟩ := clientTurn_reads hpath
  have hlt := hticking.lt
  have hold : ∀ before after, headerReads t = before ++ after → Lapsed before → after = [] := by
    intro before after hsplit hlapsed
    exact absurd (lapsed_iff.mp hlapsed) (Nat.not_le.mpr (hticking.few before after hsplit))
  have hnew : ∀ r before after, headerReads t ++ [r] = before ++ after → Lapsed before → after = [] := by
    intro r before after hsplit hlapsed
    rcases reads_split_concat hsplit with ⟨after', hsplit'⟩ | ⟨-, hnil⟩
    · exact absurd (lapsed_iff.mp hlapsed) (Nat.not_le.mpr (hticking.few before after' hsplit'))
    · exact hnil
  rw [headerReads_append]
  generalize headerReadsFrom true rest = added at hheader ⊢
  cases hheader with
  | none hwhy =>
      rw [List.append_nil]
      refine ⟨iff_of_false hwhy ?_, hold⟩
      rw [lapsed_iff, ← hticking.count]
      exact Nat.not_le.mpr hlt
  | idle hr hmany =>
      refine ⟨iff_of_true rfl ?_, hnew _⟩
      rwa [lapsed_iff, ticks_concat, if_pos hr, ← hticking.count]
  | other hr hx _ =>
      refine ⟨iff_of_false (fun hwhy => hx (hwhy ▸ rfl)) ?_, hnew _⟩
      rw [lapsed_iff, ticks_concat, if_neg (by rw [hr]; decide)]
      decide

/-- Under any answers, idleness is noticed at the fifteenth timeout in a row and at no other time. -/
theorem idle_exactly {cfg : Config} {payload : PayloadBuf} {t : List (Event ServerSig)} {why : ExitReason}
    (hpath : Loop.Path (clientWorker cfg) (.enter payload) t why) : IdleExactly why (headerReads t) := by
  refine worker_exit_rule (J := Ticking) (E := fun why t => IdleExactly why (headerReads t)) ?_
    (fun _ _ _ _ hticking hturn => hticking.turn hturn)
      (fun _ _ _ _ hticking hturn => hticking.exit hturn) ?_ hpath
  · refine ⟨rfl, fun before after hsplit => ?_⟩
    rw [(List.append_eq_nil_iff.mp hsplit.symm).1]
    decide
  · intro why t t' hidle ht'
    have hquiet : ∀ e ∈ t', ¬ Receives e.op := by
      intro e he hreceives
      have hplain := ht' e he
      obtain ⟨o, ans⟩ := e
      cases o <;> first | exact hreceives | exact hplain
    rw [headerReads, headerReads_quiet t hquiet]
    exact hidle

/-- **Dead peers are reaped.** Whatever a connection brings, while the server runs the worker leaves; and it
leaves for idleness exactly when 15 reads of a header in a row have timed out, whatever bytes of a header each
of them had got. -/
theorem dead_peer_reaped (cfg : Config) (payload : PayloadBuf) (conn : Conn) (ctx : ServerCtx)
    (hstop : ctx.choices.stop = none) :
    ∃ out, Loop.Ends (clientWorker cfg) serverHandler (.enter payload) (conn, ctx) out ∧
      IdleExactly out.value (headerReads out.trace) := by
  obtain ⟨out, hends⟩ := worker_ends cfg (.enter payload) (show (conn, ctx).2.choices.stop = none from hstop)
  exact ⟨out, hends, idle_exactly hends.path⟩

/-- Two bytes of a header, and then nothing more for ever. -/
def halfHeader : Conn := { scripted [.data 0x50 [0x4C]] with after := .eagain }

theorem halfHeader_idle : (Loop.exec (clientWorker ⟨.little, none⟩) serverHandler 17 (.enter zeroPayload)
    (halfHeader, freshServer)).map Outcome.value = some .idle := rfl

theorem dead_peer_reaped_halfHeader : ∃ out,
    Loop.Ends (clientWorker ⟨.little, none⟩) serverHandler (.enter zeroPayload) (halfHeader, freshServer) out ∧
      out.value = .idle ∧ Lapsed (headerReads out.trace) := by
  obtain ⟨out, hends, hexactly, -⟩ := dead_peer_reaped ⟨.little, none⟩ zeroPayload halfHeader freshServer rfl
  obtain ⟨out', hexec, hvalue⟩ := Option.map_eq_some_iff.mp halfHeader_idle
  have hwhy : out.value = .idle := by rw [hends.unique (.of_exec hexec), hvalue]
  exact ⟨out, hends, hwhy, hexactly.mp hwhy⟩

end PulseLink
