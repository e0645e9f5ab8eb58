import PulseLink.DeviceStream

/-! What the driver tells about itself: `PL_IOC_GET_STATS` as `telemetry_stat` prints it, `/proc/pulselink` and
`poll`. Each takes its numbers in one section under the lock, so they belong together: they are the books of the
sections since the last reset, however many processes use the device meanwhile. -/

namespace PulseLink

open Printf

/-! ### The programs -/

/-- `tlm_poll`: whether a read would find records. -/
def tlmPoll : DrvProc Bool := do
  let s ← drv .getStats
  return 0 < s.inRing

/-- The lines of `tlm_proc_show`. -/
def procText (s : PlStats) : List Char :=
  "device      : /dev/telemetry\n".toList ++
    "capacity    : ".toList ++ unsigned TRING_CAP.toNat ++ " records\n".toList ++
    "record_size : ".toList ++ unsigned REC_SZ ++ " bytes\n".toList ++
    "in_ring     : ".toList ++ unsigned s.inRing.toNat ++ "\n".toList ++
    "produced    : ".toList ++ unsigned s.produced.toNat ++ "\n".toList ++
    "dropped     : ".toList ++ unsigned s.dropped.toNat ++ "\n".toList

/-- `tlm_proc_show`, printed by whoever reads `/proc/pulselink`. -/
def showProc : DevProc Unit := do
  let s ← syscall (drv .getStats)
  devDo (.printf (procText s))

def statText (s : PlStats) : List Char :=
  "produced=".toList ++ unsigned s.produced.toNat ++ " dropped=".toList ++ unsigned s.dropped.toNat ++
    " in_ring=".toList ++ unsigned s.inRing.toNat ++ "/".toList ++ unsigned s.capacity.toNat ++ "\n".toList

def resetText : List Char := "ring counters reset\n".toList

/-- `telemetry_stat` and `telemetry_stat --reset`. -/
def telemetryStat (doReset : Bool) : DevProc Int :=
  if doReset then do
    syscall (drv .reset)
    devDo (.printf resetText)
    return 0
  else do
    let s ← syscall (drv .getStats)
    let ok ← syscall (drv .copyToUser)
    if ok then
      devDo (.printf (statText s))
      return 0
    else return 1

/-- What a process does next with the device. -/
inductive ToolCall where
  | write (len : Nat) (ubuf : Nat → TelemetryRecord)
  | read (nonblock : Bool) (len : Nat)
  | poll
  | stat (doReset : Bool)
  | proc

/-- A process working through its calls; a blocked read stays in front. -/
def toolProcess : Loop DevSig (List ToolCall) Unit
  | [] => return .inr ()
  | .write len ubuf :: calls => do
      let _ ← syscall (tlmWrite len ubuf)
      return .inl calls
  | .read nonblock len :: calls => do
      let result ← syscall (tlmReadTry nonblock len)
      return if result = none then .inl (.read nonblock len :: calls) else .inl calls
  | .poll :: calls => do
      let _ ← syscall tlmPoll
      return .inl calls
  | .stat doReset :: calls => do
      let _ ← telemetryStat doReset
      return .inl calls
  | .proc :: calls => do
      showProc
      return .inl calls

abbrev ToolPool (ι : Type) := Pool DevSig ι (List ToolCall) Unit UserEnv Tring

/-- The processes after steps in the given order, from a freshly loaded driver. -/
def toolRun {ι : Type} [DecidableEq ι] (calls : ι → List ToolCall) (envs : ι → UserEnv) (ring : Tring)
    (schedule : List ι) : ToolPool ι :=
  Pool.run toolProcess devHandler (.start toolProcess calls envs (tringInit ring)) schedule

/-! ### Since the last reset -/

section Since

variable {ι : Type}

/-- The sections behind the last reset. -/
def sinceReset (log : DrvLog ι) : DrvLog ι :=
  log.foldl (fun kept entry => if entry.2.op = .reset then [] else kept ++ [entry]) []

theorem sinceReset_concat (log : DrvLog ι) (entry : ι × Event DrvSig) :
    sinceReset (log ++ [entry]) = if entry.2.op = .reset then [] else sinceReset log ++ [entry] := by
  rw [sinceReset, List.foldl_append]
  rfl

/-- Sections without a reset are added to those before. -/
theorem sinceReset_append (log more : DrvLog ι) (hmore : ∀ entry ∈ more, entry.2.op ≠ .reset) :
    sinceReset (log ++ more) = sinceReset log ++ more := by
  induction more using List.reverseRecOn with
  | nil => rw [List.append_nil, List.append_nil]
  | append_singleton more entry ih =>
      rw [← List.append_assoc, sinceReset_concat, if_neg (hmore entry (by simp)),
        ih fun e he => hmore e (List.mem_append_left _ he), List.append_assoc]

/-- The section takes records out of the ring, or empties it. -/
def Empties (e : Event DrvSig) : Prop := e.op = .reset ∨ ∃ want recs, e = ⟨.readLocked want, some recs⟩

/-- Other sections do not empty the queue. -/
theorem queue_ne_nil_append {log more : DrvLog ι} (hmore : ∀ entry ∈ more, ¬ Empties entry.2)
    (hqueue : (historyOf log).queue ≠ []) : (historyOf (log ++ more)).queue ≠ [] := by
  induction more using List.reverseRecOn with
  | nil => rwa [List.append_nil]
  | append_singleton more entry ih =>
      obtain ⟨i, ⟨o, ans⟩⟩ := entry
      have hbefore := ih fun e he => hmore e (List.mem_append_left _ he)
      have hlast : ¬ Empties ⟨o, ans⟩ := hmore (i, ⟨o, ans⟩) (by simp)
      rw [← List.append_assoc, historyOf_append]
      cases o with
      | push rec =>
          show ((historyOf (log ++ more)).push 256 rec).queue ≠ []
          rw [History.push]
          split_ifs <;> exact List.append_ne_nil_of_right_ne_nil _ (List.cons_ne_nil _ _)
      | readLocked want =>
          cases ans with
          | none => exact hbefore
          | some recs => exact absurd (Or.inr ⟨want, recs, rfl⟩) hlast
      | _ => exact hbefore

/-- Numbers read in one section are those of the sections since the last reset. -/
structure Snapshot (log : DrvLog ι) (s : PlStats) : Prop where
  produced : s.produced = UInt64.ofNat (pushesOf (sinceReset log)).length
  dropped : s.dropped = UInt64.ofNat ((historyOf (sinceReset log)).left .overwritten).length
  inRing : s.inRing.toNat = (historyOf (sinceReset log)).queue.length
  capacity : s.capacity = 256
  room : s.inRing ≤ s.capacity
  balance : (pushesOf (sinceReset log)).length =
    (batchesOf (sinceReset log)).flatten.length + ((historyOf (sinceReset log)).left .overwritten).length +
      s.inRing.toNat

theorem Tracks.snapshot {log : DrvLog ι} {ring : Tring} (htracks : Tracks (sinceReset log) ring) :
    Snapshot log ⟨ring.produced, ring.dropped, ring.count, TRING_CAP⟩ := by
  have hcount : ring.count.toNat = (historyOf (sinceReset log)).queue.length := by
    rw [← htracks.contents, Tring.length_contents]
  refine ⟨?_, htracks.dropped, hcount, rfl, ?_, ?_⟩
  · rw [← htracks.pushed]
    exact htracks.produced
  · exact UInt32.le_iff_toNat_le.mpr htracks.valid.count_le
  · rw [← htracks.pushed, History.length_pushed, htracks.taken, hcount]

/-- The records read since the last reset, from the numbers. -/
theorem Snapshot.taken {log : DrvLog ι} {s : PlStats} (hs : Snapshot log s) :
    s.produced - s.dropped - s.inRing.toUInt64 = UInt64.ofNat (batchesOf (sinceReset log)).flatten.length := by
  have hring : s.inRing.toUInt64 = UInt64.ofNat s.inRing.toNat := (UInt64.ofNat_uInt32ToNat _).symm
  rw [hs.produced, hs.dropped, hs.balance, hring, UInt64.ofNat_add, UInt64.ofNat_add]
  grind

/-- The numbers of two moments without a reset between them. -/
theorem Snapshot.later {log more : DrvLog ι} {s₁ s₂ : PlStats} (h₁ : Snapshot log s₁)
    (h₂ : Snapshot (log ++ more) s₂) (hmore : ∀ entry ∈ more, entry.2.op ≠ .reset) :
    s₂.produced - s₁.produced = UInt64.ofNat (pushesOf more).length ∧
      (s₂.produced - s₂.dropped - s₂.inRing.toUInt64) - (s₁.produced - s₁.dropped - s₁.inRing.toUInt64) =
        UInt64.ofNat (batchesOf more).flatten.length := by
  have hpushes : pushesOf (sinceReset log ++ more) = pushesOf (sinceReset log) ++ pushesOf more :=
    List.filterMap_append
  have hbatches : batchesOf (sinceReset log ++ more) = batchesOf (sinceReset log) ++ batchesOf more :=
    List.filterMap_append
  rw [h₁.taken, h₂.taken, h₁.produced, h₂.produced, sinceReset_append log more hmore]
  constructor
  · rw [hpushes, List.length_append, UInt64.ofNat_add, UInt64.add_comm, UInt64.add_sub_cancel]
  · rw [hbatches, List.flatten_append, List.length_append, UInt64.ofNat_add, UInt64.add_comm, UInt64.add_sub_cancel]

end Since

/-! ### Every run -/

section Run

variable {ι : Type}

/-- A section leaves the ring in step with the sections since the last reset. -/
theorem tracks_sinceReset {log : DrvLog ι} {ring : Tring} (htracks : Tracks (sinceReset log) ring) (i : ι) (o : DrvOp)
    (env : UserEnv) :
    Tracks (sinceReset (log ++ [(i, ⟨o, (drvHandler o (env, ring)).1⟩)])) (drvHandler o (env, ring)).2.2 := by
  rw [sinceReset_concat]
  by_cases hreset : o = .reset
  · subst hreset
    exact tracks_init ring
  · rw [if_neg hreset]
    exact htracks.step i hreset env

variable [DecidableEq ι]

/-- What a section answers, after the sections `log`: numbers are a snapshot, and a read that found nothing had
nothing to find. -/
structure Honest (log : DrvLog ι) (e : Event DevSig) : Prop where
  stats : ∀ s, e = ⟨.dev .getStats, s⟩ → Snapshot log s
  empty : ∀ want, e = ⟨.dev (.readLocked want), none⟩ → (historyOf (sinceReset log)).queue = []

theorem tools_honest (calls : ι → List ToolCall) (envs : ι → UserEnv) (ring : Tring) (schedule : List ι) :
    Pool.Throughout (fun log e => Honest (drvLog log) e) (toolRun calls envs ring schedule).log := by
  refine Pool.throughout_run toolProcess devHandler (fun log ring => Tracks (sinceReset (drvLog log)) ring) _ ?_ ?_
    (tracks_init ring) schedule
  · intro log ring i o env htracks
    rw [drvLog_append]
    cases o with
    | dev o => exact tracks_sinceReset htracks i o env
    | printf text => exact (List.append_nil (drvLog log)).symm ▸ htracks
    | returned rec result => exact (List.append_nil (drvLog log)).symm ▸ htracks
  · intro log ring o env htracks
    constructor
    · intro s he
      cases he
      exact htracks.snapshot
    · intro want he
      rw [← htracks.contents]
      cases o with
      | dev o =>
          cases o with
          | readLocked want' =>
              rw [← List.length_eq_zero_iff, Tring.length_contents]
              by_cases hzero : ring.count = 0
              · rw [hzero]
                rfl
              · simp only [devHandler, drvHandler, if_neg hzero] at he
                cases he
          | _ => cases he
      | printf text => cases he
      | returned rec result => cases he

end Run

/-! ### What is printed -/

/-- The numbers a process read last. -/
abbrev LastRead := Option PlStats

/-- A text with numbers shows those read last. -/
def LastRead.next : Monitor DevSig LastRead
  | _, ⟨.dev .getStats, s⟩ => some (some s)
  | last, ⟨.printf text, _⟩ =>
      if text = resetText ∨ last.map statText = some text ∨ last.map procText = some text then some last else none
  | last, _ => some last

theorem LastRead.next_printf {last : LastRead} {text : List Char}
    (htext : text = resetText ∨ last.map statText = some text ∨ last.map procText = some text) :
    last.next ⟨.printf text, ()⟩ = some last :=
  if_pos htext

/-- Calls that print nothing. -/
theorem syscall_follows_last {α : Type} (p : DrvProc α) (last : LastRead) :
    (syscall p).Follows LastRead.next (fun _ _ => True) last := by
  induction p generalizing last with
  | ret value => trivial
  | op o next ih =>
      intro ans
      cases o with
      | getStats => exact ⟨some ans, rfl, ih ans _⟩
      | _ => exact ⟨last, rfl, ih ans _⟩

theorem toolProcess_follows (calls : List ToolCall) (last : LastRead) :
    (toolProcess calls).Follows LastRead.next (Monitor.Turned (fun _ _ => True) fun _ _ => True) last := by
  cases calls with
  | nil => trivial
  | cons call calls =>
      cases call with
      | write len ubuf => exact (syscall_follows_last _ last).bind fun _ _ _ => trivial
      | poll => exact (syscall_follows_last _ last).bind fun _ _ _ => trivial
      | read nonblock len =>
          refine (syscall_follows_last _ last).bind ?_
          intro last' result _
          show Monitor.Turned _ _ _ (if result = none then _ else _)
          split_ifs <;> trivial
      | proc => exact fun s => ⟨some s, rfl, fun _ => ⟨some s, LastRead.next_printf (Or.inr (Or.inr rfl)), trivial⟩⟩
      | stat doReset =>
          cases doReset with
          | true => exact fun _ => ⟨last, rfl, fun _ => ⟨last, LastRead.next_printf (Or.inl rfl), trivial⟩⟩
          | false =>
              intro s
              refine ⟨some s, rfl, fun ok => ⟨some s, rfl, ?_⟩⟩
              cases ok with
              | true => exact fun _ => ⟨some s, LastRead.next_printf (Or.inr (Or.inl rfl)), trivial⟩
              | false => trivial

/-- What was read last was read. -/
theorem LastRead.next_mem {last last' : LastRead} {t : List (Event DevSig)} {e : Event DevSig}
    (hlast : ∀ s, last = some s → ⟨.dev .getStats, s⟩ ∈ t) (hmove : last.next e = some last') :
    ∀ s, last' = some s → ⟨.dev .getStats, s⟩ ∈ t ++ [e] := by
  obtain ⟨o, ans⟩ := e
  intro s hs
  by_cases hread : o = .dev .getStats
  · subst hread
    cases hmove
    cases hs
    exact List.mem_append_right _ List.mem_cons_self
  · have hsame : last' = last := by
      cases o with
      | dev o =>
          cases o with
          | getStats => exact absurd rfl hread
          | _ => exact (Option.some.inj hmove).symm
      | printf text => exact (Option.some.inj (Option.ite_none_right_eq_some.mp hmove).2).symm
      | returned rec result => exact (Option.some.inj hmove).symm
    rw [hsame] at hs
    exact List.mem_append_left _ (hlast s hs)

/-- One process writes a record, the other looks at the numbers twice and reads twice. -/
def watchedDevice : Bool → List ToolCall
  | true => [.write 24 fun _ => ⟨7, 1, 0, 0, 0⟩]
  | false => [.stat false, .read true 24, .poll, .read true 24]

/-- The write. -/
def watchedStart : List (Bool × Event DevSig) :=
  [(true, ⟨.dev .copyFromUser, true⟩), (true, ⟨.dev (.push ⟨7, 1, 0, 0, 0⟩), ()⟩), (true, ⟨.dev .wakeUp, ()⟩)]

/-- The rest of the first look, and the read that takes the record. -/
def watchedRead : List (Bool × Event DevSig) :=
  [(false, ⟨.dev .copyToUser, true⟩), (false, ⟨.printf (statText ⟨1, 0, 1, 256⟩), ()⟩),
    (false, ⟨.dev (.readLocked 1), some [⟨7, 1, 0, 0, 0⟩]⟩), (false, ⟨.dev .copyToUser, true⟩),
    (false, ⟨.dev (.delivered 24 [⟨7, 1, 0, 0, 0⟩]), ()⟩)]

def watchedSchedule : List Bool := [true, true, true] ++ List.replicate 11 false

section Reports

variable {ι : Type}

theorem drvLog_look (before between : List (ι × Event DevSig)) (i : ι) (s : PlStats) :
    drvLog (before ++ (i, ⟨.dev .getStats, s⟩) :: between) =
      drvLog before ++ (i, ⟨.getStats, s⟩) :: drvLog between := by
  rw [drvLog, List.filterMap_append]
  rfl

variable [DecidableEq ι]

/-- **Statistics are snapshots.** Any number of processes write, read, poll, reset and print the numbers of the
device, in any interleaving. Every text printed is that of a reset, or shows the numbers of one earlier moment:
the records written since the last reset, those overwritten, and those in the ring, never more than the capacity.
At that moment the records written are those read, those overwritten and those in the ring. -/
theorem reports_are_snapshots (calls : ι → List ToolCall) (envs : ι → UserEnv) (ring : Tring) (schedule : List ι)
    (before : List (ι × Event DevSig)) (i : ι) (text : List Char) (after : List (ι × Event DevSig))
    (hlog : (toolRun calls envs ring schedule).log = before ++ (i, ⟨.printf text, ()⟩) :: after) :
    text = resetText ∨ ∃ earlier s between, before = earlier ++ (i, ⟨.dev .getStats, s⟩) :: between ∧
      (text = statText s ∨ text = procText s) ∧ Snapshot (drvLog earlier) s := by
  have hstands := Pool.thread_stands toolProcess devHandler calls envs (tringInit ring) schedule i
  obtain ⟨last, haccepts, -⟩ := hstands.accepts (J := fun _ _ => True) (E := fun _ _ => True)
    (fun calls last _ => toolProcess_follows calls last) (s := none) trivial
  have hevents : Pool.eventsOf (toolRun calls envs ring schedule).log i =
      Pool.eventsOf before i ++ ⟨.printf text, ()⟩ :: Pool.eventsOf after i := by
    rw [hlog]
    simp [Pool.eventsOf]
  unfold toolRun at hevents
  rw [hevents] at haccepts
  obtain ⟨last, hbefore, hrest⟩ := haccepts.split
  cases hrest with
  | cons hmove _ =>
      obtain ⟨htext, -⟩ := Option.ite_none_right_eq_some.mp hmove
      have hmem : ∀ s, last = some s → ⟨.dev .getStats, s⟩ ∈ Pool.eventsOf before i :=
        hbefore.keeps (P := fun last t => ∀ s, last = some s → ⟨.dev .getStats, s⟩ ∈ t)
          (fun last t e last' hlast hmove => LastRead.next_mem hlast hmove) (fun s hs => by cases hs)
      rcases htext with hreset | htext
      · exact Or.inl hreset
      · refine Or.inr ?_
        obtain ⟨s, hs, htext⟩ : ∃ s, last = some s ∧ (text = statText s ∨ text = procText s) := by
          rcases htext with hstat | hproc
          · obtain ⟨s, hs, rfl⟩ := Option.map_eq_some_iff.mp hstat
            exact ⟨s, hs, Or.inl rfl⟩
          · obtain ⟨s, hs, rfl⟩ := Option.map_eq_some_iff.mp hproc
            exact ⟨s, hs, Or.inr rfl⟩
        obtain ⟨earlier, between, rfl⟩ := List.append_of_mem (Pool.mem_eventsOf.mp (hmem s hs))
        rw [List.append_assoc, List.cons_append] at hlog
        exact ⟨earlier, s, between, rfl, htext, (tools_honest calls envs ring schedule _ _ _ _ hlog).stats s rfl⟩

theorem reports_are_snapshots_watched :
    let text := statText ⟨1, 0, 1, 256⟩
    text = resetText ∨ ∃ earlier s between,
      watchedStart ++ [(false, ⟨.dev .getStats, ⟨1, 0, 1, 256⟩⟩), (false, ⟨.dev .copyToUser, true⟩)] =
        earlier ++ (false, ⟨.dev .getStats, s⟩) :: between ∧
      (text = statText s ∨ text = procText s) ∧ Snapshot (drvLog earlier) s :=
  reports_are_snapshots watchedDevice (fun _ => ⟨[], []⟩) emptyRing (watchedSchedule.take 6) _ false _ [] rfl

/-- **Two looks at the numbers tell what happened in between.** In any interleaving, if nobody resets the device
between two moments at which its numbers are read, by `telemetry_stat`, `/proc/pulselink` or `poll` and by
whichever processes, then `produced` has grown by the records pushed in between, and `produced` less `dropped` and
`in_ring` by the records read. -/
theorem snapshots_account (calls : ι → List ToolCall) (envs : ι → UserEnv) (ring : Tring) (schedule : List ι)
    (before : List (ι × Event DevSig)) (i : ι) (s₁ : PlStats) (between : List (ι × Event DevSig)) (j : ι)
    (s₂ : PlStats) (after : List (ι × Event DevSig))
    (hlog : (toolRun calls envs ring schedule).log =
      before ++ (i, ⟨.dev .getStats, s₁⟩) :: (between ++ (j, ⟨.dev .getStats, s₂⟩) :: after))
    (hreset : ∀ entry ∈ between, entry.2.op ≠ .dev .reset) :
    s₂.produced - s₁.produced = UInt64.ofNat (pushesOf (drvLog between)).length ∧
      (s₂.produced - s₂.dropped - s₂.inRing.toUInt64) - (s₁.produced - s₁.dropped - s₁.inRing.toUInt64) =
        UInt64.ofNat (batchesOf (drvLog between)).flatten.length := by
  have hhonest := tools_honest calls envs ring schedule
  have hfirst : Snapshot (drvLog before) s₁ := (hhonest _ _ _ _ hlog).stats s₁ rfl
  have hsecond : Snapshot (drvLog (before ++ (i, ⟨.dev .getStats, s₁⟩) :: between)) s₂ := by
    refine (hhonest _ j _ after ?_).stats s₂ rfl
    rw [hlog, List.append_assoc]
    rfl
  rw [drvLog_look] at hsecond
  have hlater := hfirst.later hsecond ?_
  · exact hlater
  intro entry hentry
  rcases List.mem_cons.mp hentry with rfl | hentry
  · exact fun h => by cases h
  · obtain ⟨⟨k, ⟨o, ans⟩⟩, hmem, he⟩ := List.mem_filterMap.mp hentry
    cases o with
    | dev o =>
        cases he
        exact fun ho => hreset _ hmem (congrArg DevOp.dev ho)
    | printf text => cases he
    | returned rec result => cases he

theorem snapshots_account_watched :
    let more := watchedRead
    (1 : UInt64) - 1 = UInt64.ofNat (pushesOf (drvLog more)).length ∧
      ((1 : UInt64) - 0 - (0 : UInt32).toUInt64) - (1 - 0 - (1 : UInt32).toUInt64) =
        UInt64.ofNat (batchesOf (drvLog more)).flatten.length := by
  intro more
  have hreset : ∀ entry ∈ more, entry.2.op ≠ .dev .reset := by decide +kernel
  exact snapshots_account watchedDevice (fun _ => ⟨[], []⟩) emptyRing (watchedSchedule.take 12) watchedStart false
    ⟨1, 0, 1, 256⟩ more false ⟨1, 0, 0, 256⟩ [] rfl hreset

/-- **`poll` does not lie.** In any interleaving, once `poll`, or any look at the numbers, has found records, a
read finds some too, unless between the two a read has taken records or someone has reset the ring. -/
theorem readable_until_taken (calls : ι → List ToolCall) (envs : ι → UserEnv) (ring : Tring) (schedule : List ι)
    (before : List (ι × Event DevSig)) (i : ι) (s : PlStats) (between : List (ι × Event DevSig)) (j : ι) (want : Nat)
    (after : List (ι × Event DevSig))
    (hlog : (toolRun calls envs ring schedule).log =
      before ++ (i, ⟨.dev .getStats, s⟩) :: (between ++ (j, ⟨.dev (.readLocked want), none⟩) :: after))
    (hreadable : 0 < s.inRing) : ∃ entry ∈ drvLog between, Empties entry.2 := by
  by_contra hnone
  have hkeep : ∀ entry ∈ drvLog between, ¬ Empties entry.2 := fun entry hentry h => hnone ⟨entry, hentry, h⟩
  have hhonest := tools_honest calls envs ring schedule
  have hfound : (historyOf (sinceReset (drvLog before))).queue ≠ [] := by
    rw [← List.length_pos_iff, ← ((hhonest _ _ _ _ hlog).stats s rfl).inRing]
    exact UInt32.lt_iff_toNat_lt.mp hreadable
  have hempty : (historyOf (sinceReset (drvLog (before ++ (i, ⟨.dev .getStats, s⟩) :: between)))).queue = [] := by
    refine (hhonest _ j _ after ?_).empty want rfl
    rw [hlog, List.append_assoc]
    rfl
  have hkeep' : ∀ entry ∈ (i, (⟨.getStats, s⟩ : Event DrvSig)) :: drvLog between, ¬ Empties entry.2 := by
    intro entry hentry
    rcases List.mem_cons.mp hentry with rfl | hentry
    · rintro (h | ⟨want, recs, h⟩) <;> cases h
    · exact hkeep entry hentry
  rw [drvLog_look, sinceReset_append _ _ fun entry hentry hreset => hkeep' entry hentry (Or.inl hreset)] at hempty
  exact queue_ne_nil_append hkeep' hfound hempty

theorem readable_until_taken_watched :
    ∃ entry ∈ drvLog (watchedRead ++ [(false, ⟨.dev .getStats, ⟨1, 0, 0, 256⟩⟩)]), Empties entry.2 :=
  readable_until_taken watchedDevice (fun _ => ⟨[], []⟩) emptyRing watchedSchedule watchedStart false ⟨1, 0, 1, 256⟩ _
    false 1 [] rfl (by decide)

end Reports

end PulseLink
