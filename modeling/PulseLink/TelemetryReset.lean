import PulseLink.BaseAlike
import PulseLink.TelemetryDrv

/-! The reset of `/dev/telemetry` in sequential use: one call after the other, each with what its caller
gets to see. `tring_init` clears the counters and also the indices of the ring, so two runs that differ in
a reset agree on everything but the counters exactly while the resets fall on an empty ring. -/

namespace PulseLink

/-! ### Calls one after the other -/

/-- The commands of `tlm_ioctl`. -/
inductive IoctlCmd where
  | getStats
  | reset
  | other
  deriving DecidableEq, Repr

/-- A call on the device, or a read of `/proc/pulselink`. -/
inductive TlmCall where
  | write (len : Nat) (ubuf : Nat → TelemetryRecord)
  | read (nonblock : Bool) (len : Nat)
  | ioctl (cmd : IoctlCmd)
  | procShow

/-- What a call shows its caller: a return value, the records in the read buffer, the filled-in
`struct pl_stats`, or the numbers of `/proc/pulselink`. -/
inductive Report where
  | result (r : DrvResult)
  | records (recs : List TelemetryRecord)
  | stats (s : PlStats)
  | enotty
  | proc (inRing : UInt32) (produced dropped : UInt64)
  deriving DecidableEq, Repr

/-- The report without the two counters. -/
def Report.uncounted : Report → Report
  | .stats s => .stats { s with produced := 0, dropped := 0 }
  | .proc inRing _ _ => .proc inRing 0 0
  | report => report

abbrev TlmDevice := UserEnv × Tring

/-- The operations when nobody else uses the device: a read that waits on an empty ring is only ended by
a signal. -/
def aloneHandler : Handler DrvSig TlmDevice
  | .waitEvent, w => (false, w)
  | o, w => drvHandler o w

/-- What a read shows: its records if it returns a byte count, else its error. -/
def readReport : Option (DrvResult × List TelemetryRecord) → Report
  | some (.bytes _, recs) => .records recs
  | some (r, _) => .result r
  | none => .result .erestartsys

/-- One call, with nobody else using the device. -/
def tlmCall : TlmCall → TlmDevice → Report × TlmDevice
  | .write len ubuf, w =>
      let out := (tlmWrite len ubuf).exec aloneHandler w
      (.result out.value, out.world)
  | .read nonblock len, w =>
      let out := (tlmReadTry nonblock len).exec aloneHandler w
      (readReport out.value, out.world)
  | .ioctl .getStats, w =>
      let s := (aloneHandler .getStats w).1
      let ok := aloneHandler .copyToUser (aloneHandler .getStats w).2
      (if ok.1 then .stats s else .result .efault, ok.2)
  | .ioctl .reset, w => (.result .zero, (aloneHandler .reset w).2)
  | .ioctl .other, w => (.enotty, w)
  | .procShow, w => (.proc w.2.count w.2.produced w.2.dropped, w)

/-- The reports of the calls, in order, and the device after them. -/
def tlmCalls : List TlmCall → TlmDevice → List Report × TlmDevice
  | [], w => ([], w)
  | c :: cs, w => ((tlmCall c w).1 :: (tlmCalls cs (tlmCall c w).2).1, (tlmCalls cs (tlmCall c w).2).2)

/-- A sequence of calls with resets inserted, marked `none`: the reports of the calls themselves. -/
def tlmCallsReset : List (Option TlmCall) → TlmDevice → List Report
  | [], _ => []
  | none :: cs, w => tlmCallsReset cs (tlmCall (.ioctl .reset) w).2
  | some c :: cs, w => (tlmCall c w).1 :: tlmCallsReset cs (tlmCall c w).2

/-- Every inserted reset finds the ring empty. -/
def ResetsOnEmpty : List (Option TlmCall) → TlmDevice → Prop
  | [], _ => True
  | none :: cs, w => w.2.count = 0 ∧ ResetsOnEmpty cs (tlmCall (.ioctl .reset) w).2
  | some c :: cs, w => ResetsOnEmpty cs (tlmCall c w).2

/-! ### Two rings with the same records -/

/-- Two devices that hold the same records and will get the same answers from their users. -/
structure SameData (w w' : TlmDevice) : Prop where
  env : w'.1 = w.1
  valid : w.2.Valid
  valid' : w'.2.Valid
  contents : w'.2.contents = w.2.contents

theorem SameData.count {w w' : TlmDevice} (hsame : SameData w w') : w'.2.count = w.2.count := by
  rw [← UInt32.toNat_inj, ← Tring.length_contents, ← Tring.length_contents, hsame.contents]

/-- The records after a push are those of a bounded queue. -/
theorem contents_push {r : Tring} (hvalid : r.Valid) (rec : TelemetryRecord) :
    (tringPush r rec).2.Valid ∧ (tringPush r rec).2.contents =
      (if r.contents.length < 256 then r.contents else r.contents.drop 1) ++ [rec] := by
  have hle := hvalid.count_le
  rw [Tring.length_contents]
  split_ifs with hroom
  · obtain ⟨hvalid', hcontents, -⟩ := Tring.push_room hvalid rec hroom
    exact ⟨hvalid', hcontents⟩
  · obtain ⟨hvalid', hcontents, -⟩ := Tring.push_full hvalid rec (by omega)
    exact ⟨hvalid', hcontents⟩

/-- The operation does not query the counters. -/
def NoStats (o : DrvOp) : Prop := o ≠ .getStats

/-- Every operation but the query of the counters gets the same answer and keeps the records the same. -/
theorem SameData.step {w w' : TlmDevice} (hsame : SameData w w') {o : DrvOp} (ho : NoStats o) :
    (aloneHandler o w').1 = (aloneHandler o w).1 ∧ SameData (aloneHandler o w).2 (aloneHandler o w').2 := by
  obtain ⟨env, r⟩ := w
  obtain ⟨env', r'⟩ := w'
  obtain rfl : env' = env := hsame.env
  have hvalid : r.Valid := hsame.valid
  have hvalid' : r'.Valid := hsame.valid'
  have hcontents : r'.contents = r.contents := hsame.contents
  have hcount : r'.count = r.count := hsame.count
  cases o with
  | getStats => exact absurd rfl ho
  | push rec =>
      obtain ⟨hpush, hafter⟩ := contents_push hvalid rec
      obtain ⟨hpush', hafter'⟩ := contents_push hvalid' rec
      refine ⟨rfl, rfl, hpush, hpush', ?_⟩
      rw [hcontents, ← hafter] at hafter'
      exact hafter'
  | readLocked want =>
      by_cases hzero : r.count = 0
      · simp only [aloneHandler, drvHandler, if_pos hzero, if_pos (hcount.trans hzero), true_and]
        exact hsame
      · obtain ⟨hrecs, hpop, hafter, -⟩ := Tring.popUpTo_eq hvalid want
        obtain ⟨hrecs', hpop', hafter', -⟩ := Tring.popUpTo_eq hvalid' want
        simp only [aloneHandler, drvHandler, if_neg hzero, if_neg (hcount ▸ hzero)]
        refine ⟨congrArg some ?_, rfl, hpop, hpop', ?_⟩
        · rw [hrecs, hrecs', hcontents]
        · rw [hafter', hcontents, ← hafter]
  | reset => exact ⟨rfl, rfl, r.valid_init, r'.valid_init, rfl⟩
  | copyFromUser => exact ⟨rfl, rfl, hvalid, hvalid', hcontents⟩
  | copyToUser => exact ⟨rfl, rfl, hvalid, hvalid', hcontents⟩
  | wakeUp => exact ⟨rfl, hsame⟩
  | waitEvent => exact ⟨rfl, hsame⟩
  | delivered len recs => exact ⟨rfl, hsame⟩

/-- A program that does not query the counters runs the same on both devices. -/
theorem SameData.exec {α : Type} {w w' : TlmDevice} (hsame : SameData w w') {p : DrvProc α}
    (hp : p.Uses NoStats) :
    (p.exec aloneHandler w').value = (p.exec aloneHandler w).value ∧
      SameData (p.exec aloneHandler w).world (p.exec aloneHandler w').world := by
  obtain ⟨value', w₁', hruns, rfl, hR⟩ := (Proc.Twin.refl p).runs (R := SameData)
    (fun o w w' ho hR => hR.step ho) hp hsame (Proc.runs_exec aloneHandler p w)
  rw [Proc.Runs] at hruns
  rw [hruns]
  exact ⟨rfl, hR⟩

/-- One call reports the same, counters apart, and keeps the records the same. -/
theorem SameData.call {w w' : TlmDevice} (hsame : SameData w w') (c : TlmCall) :
    (tlmCall c w').1.uncounted = (tlmCall c w).1.uncounted ∧ SameData (tlmCall c w).2 (tlmCall c w').2 := by
  cases c with
  | write len ubuf =>
      have huses : (tlmWrite len ubuf).Uses NoStats :=
        tlmWrite_uses (by simp [NoStats]) (by simp [NoStats]) (by simp [NoStats]) len ubuf
      obtain ⟨hvalue, hworld⟩ := hsame.exec huses
      refine ⟨?_, hworld⟩
      simp only [tlmCall, hvalue]
  | read nonblock len =>
      have huses : (tlmReadTry nonblock len).Uses NoStats :=
        tlmReadTry_uses (by simp [NoStats]) (by simp [NoStats]) (by simp [NoStats]) (by simp [NoStats]) nonblock len
      obtain ⟨hvalue, hworld⟩ := hsame.exec huses
      refine ⟨?_, hworld⟩
      simp only [tlmCall, hvalue]
  | ioctl cmd =>
      cases cmd with
      | getStats =>
          obtain ⟨hok, hcopied⟩ := hsame.step (o := .copyToUser) (fun h => by cases h)
          have hok' : (aloneHandler .copyToUser (aloneHandler .getStats w').2).1 =
              (aloneHandler .copyToUser (aloneHandler .getStats w).2).1 := hok
          refine ⟨?_, hcopied⟩
          simp only [tlmCall, hok']
          split_ifs
          · simp only [aloneHandler, drvHandler, Report.uncounted, hsame.count]
          · rfl
      | reset => exact ⟨rfl, (hsame.step (o := .reset) (fun h => by cases h)).2⟩
      | other => exact ⟨rfl, hsame⟩
  | procShow => exact ⟨by simp only [tlmCall, Report.uncounted, hsame.count], hsame⟩

theorem SameData.calls {w w' : TlmDevice} (hsame : SameData w w') (cs : List TlmCall) :
    (tlmCalls cs w').1.map Report.uncounted = (tlmCalls cs w).1.map Report.uncounted := by
  induction cs generalizing w w' with
  | nil => rfl
  | cons c cs ih =>
      obtain ⟨hreport, hnext⟩ := hsame.call c
      simp only [tlmCalls, List.map_cons, hreport, ih hnext]

/-- A reset of an empty ring keeps the records the same: there are none. -/
theorem SameData.reset {w w' : TlmDevice} (hsame : SameData w w') (hempty : w'.2.count = 0) :
    SameData w (tlmCall (.ioctl .reset) w').2 where
  env := hsame.env
  valid := hsame.valid
  valid' := w'.2.valid_init
  contents := by
    have hnil : w.2.contents = [] := by
      rw [← List.length_eq_zero_iff, Tring.length_contents, ← hsame.count, hempty]
      rfl
    rw [hnil]
    rfl

/-- Runs that start with the same records, one of them with resets of the empty ring inserted. -/
theorem SameData.resets {w w' : TlmDevice} (hsame : SameData w w') {cs : List (Option TlmCall)}
    (hempty : ResetsOnEmpty cs w') :
    (tlmCallsReset cs w').map Report.uncounted =
      (tlmCalls (cs.filterMap id) w).1.map Report.uncounted := by
  induction cs generalizing w w' with
  | nil => rfl
  | cons mark cs ih =>
      cases mark with
      | none => exact ih (hsame.reset hempty.1) hempty.2
      | some c =>
          obtain ⟨hreport, hnext⟩ := hsame.call c
          have hrest := ih hnext hempty
          simp only [tlmCallsReset, List.filterMap_cons, id_eq, tlmCalls, List.map_cons,
            hreport, hrest]

theorem sameData_refl {w : TlmDevice} (hvalid : w.2.Valid) : SameData w w := ⟨rfl, hvalid, hvalid, rfl⟩

theorem valid_calls {w : TlmDevice} (hvalid : w.2.Valid) (cs : List TlmCall) : (tlmCalls cs w).2.2.Valid := by
  induction cs generalizing w with
  | nil => exact hvalid
  | cons c cs ih => exact ih ((sameData_refl hvalid).call c).2.valid

/-- **Resets show exactly when they hit records.** Inserted resets that find the ring empty change no
report but for the two counters; and after any calls, a reset that changes nothing but the counters in what
every continuation reports is one of an empty ring. -/
theorem reset_unseen_iff (env : UserEnv) (ring : Tring) :
    (∀ cs : List (Option TlmCall), ResetsOnEmpty cs (env, tringInit ring) →
      (tlmCallsReset cs (env, tringInit ring)).map Report.uncounted =
        (tlmCalls (cs.filterMap id) (env, tringInit ring)).1.map Report.uncounted) ∧
    ∀ before : List TlmCall,
      let w := (tlmCalls before (env, tringInit ring)).2
      (∀ after : List TlmCall,
        (tlmCalls after (tlmCall (.ioctl .reset) w).2).1.map Report.uncounted =
          (tlmCalls after w).1.map Report.uncounted) ↔ w.2.count = 0 := by
  have hinit : (tringInit ring).Valid := ring.valid_init
  refine ⟨fun cs hempty => (sameData_refl hinit).resets hempty, ?_⟩
  intro before w
  have hvalid : w.2.Valid := valid_calls hinit before
  constructor
  · intro hunseen
    -- one look at `/proc/pulselink` tells the two apart
    have hlook := hunseen [.procShow]
    simp only [tlmCalls, tlmCall, List.map_cons, List.map_nil, Report.uncounted, List.cons.injEq, and_true,
      Report.proc.injEq] at hlook
    exact hlook.symm
  · intro hempty after
    exact ((sameData_refl hvalid).reset hempty).calls after

def oneRecord : TelemetryRecord := ⟨7, 1, 2654, 4810, 99⟩

/-- A record read before the reset and one written after it. -/
theorem reset_unseen_iff_drained :
    let write : TlmCall := .write 24 fun _ => oneRecord
    (tlmCallsReset [some write, some (.read true 24), none, some write, some (.ioctl .getStats)]
        (⟨[], []⟩, tringInit emptyRing)).map Report.uncounted =
      [.result (.bytes 24), .records [oneRecord], .result (.bytes 24), .stats ⟨0, 0, 1, 256⟩] := by
  intro write
  have hempty : ResetsOnEmpty [some write, some (.read true 24), none, some write, some (.ioctl .getStats)]
      (⟨[], []⟩, tringInit emptyRing) := ⟨by decide +kernel, trivial⟩
  exact ((reset_unseen_iff ⟨[], []⟩ emptyRing).1 _ hempty).trans (by decide +kernel)

/-- A reset between the write of a record and the read of it: the record is gone, and the number of
buffered records with it. -/
theorem reset_drops_record :
    let write : TlmCall := .write 24 fun _ => oneRecord
    let cs : List (Option TlmCall) := [some write, none, some .procShow, some (.read true 24)]
    (tlmCallsReset cs (⟨[], []⟩, tringInit emptyRing)).map Report.uncounted =
        [.result (.bytes 24), .proc 0 0 0, .result .eagain] ∧
      (tlmCalls (cs.filterMap id) (⟨[], []⟩, tringInit emptyRing)).1.map Report.uncounted =
        [.result (.bytes 24), .proc 1 0 0, .records [oneRecord]] := by
  decide +kernel

end PulseLink
