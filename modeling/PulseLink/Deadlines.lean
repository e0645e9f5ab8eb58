import PulseLink.BaseTotal
import PulseLink.FirmwareLoops

/-! How long the loops of `net_task` take. The clock wraps around every 49 days and every call may take some time of
its own; still `read_exact` keeps its deadline, up to its last wait and the calls of one turn, and gives either the
next bytes of the stream, exactly as many as it was asked for, or nothing. -/

namespace PulseLink

/-! ### Time -/

/-- A clock of 32 bits shows a deadline as passed, if it is at most half a round away. -/
theorem late_iff {n d : Nat} (hsoon : d ≤ n + 2 ^ 31) (hpast : n < d + 2 ^ 31) :
    0 ≤ (UInt32.ofNat n - UInt32.ofNat d).toInt32 ↔ d ≤ n := by
  have hzero : (0 : Int32).toInt = 0 := rfl
  have hint : (UInt32.ofNat n - UInt32.ofNat d).toInt32.toInt = (UInt32.ofNat n - UInt32.ofNat d).toBitVec.toInt :=
    rfl
  have hnat : (UInt32.ofNat n - UInt32.ofNat d).toBitVec.toNat = (2 ^ 32 - d % 2 ^ 32 + n % 2 ^ 32) % 2 ^ 32 := by
    show (UInt32.ofNat n - UInt32.ofNat d).toNat = _
    rw [UInt32.toNat_sub, UInt32.toNat_ofNat', UInt32.toNat_ofNat']
  rw [Int32.le_iff_toInt_le, hzero, hint, BitVec.toInt_eq_toNat_cond, hnat]
  split_ifs with hhalf <;> omega

/-- From `w` to `w'` at least `least` and at most `most` ms have passed; no call takes longer than `lag` of its own,
and of what the connection is going to be some has been looked at. -/
structure Elapses (lag : Nat) (w w' : NetWorld) (least most : Nat) : Prop where
  least : w.now + least ≤ w'.now
  most : w'.now ≤ w.now + most
  lags : ∀ x ∈ w'.lags, x ≤ lag
  connections : w'.firmware.choices.connections <:+ w.firmware.choices.connections

theorem Elapses.trans {lag : Nat} {w w' w'' : NetWorld} {least most least' most' : Nat}
    (h : Elapses lag w w' least most) (h' : Elapses lag w' w'' least' most') :
    Elapses lag w w'' (least + least') (most + most') where
  least := by
    have hfirst := h.least
    have hsecond := h'.least
    omega
  most := by
    have hfirst := h.most
    have hsecond := h'.most
    omega
  lags := h'.lags
  connections := h'.connections.trans h.connections

theorem Elapses.mono {lag : Nat} {w w' : NetWorld} {least most least' most' : Nat} (h : Elapses lag w w' least most)
    (hleast : least' ≤ least) (hmost : most ≤ most') : Elapses lag w w' least' most' where
  least := (Nat.add_le_add_left hleast _).trans h.least
  most := h.most.trans (Nat.add_le_add_left hmost _)
  lags := h.lags
  connections := h.connections

/-- How long an operation waits. -/
def NetOp.waits : NetOp → Nat
  | .fw (.vTaskDelay ms) => ms.toNat
  | _ => 0

theorem pass_passes {lag : Nat} {w : NetWorld} (hlags : ∀ x ∈ w.lags, x ≤ lag) (wait : Nat) :
    Elapses lag w (w.pass wait) wait (wait + lag) := by
  obtain ⟨hlag, hlags'⟩ := draw_all (P := fun x => x ≤ lag) (Nat.zero_le lag) hlags
  refine ⟨Nat.le_add_right _ _, ?_, hlags', List.suffix_rfl⟩
  rw [NetWorld.pass, ← Nat.add_assoc]
  exact Nat.add_le_add_left hlag _

/-- What every operation takes. -/
theorem netHandler_elapses {lag : Nat} {w : NetWorld} (hlags : ∀ x ∈ w.lags, x ≤ lag) (j : NetOp) :
    Elapses lag w (netHandler j ((), w)).2.2 j.waits (j.waits + lag) := by
  have hpass := pass_passes hlags j.waits
  refine ⟨?_, ?_, ?_, ?_⟩
  · cases j with
    | fw o => cases o <;> exact hpass.least
    | _ => exact hpass.least
  · cases j with
    | fw o => cases o <;> exact hpass.most
    | _ => exact hpass.most
  · cases j with
    | fw o => cases o <;> exact hpass.lags
    | _ => exact hpass.lags
  · cases j with
    | fw o =>
        cases o with
        | connected => exact draw_suffix _ _
        | _ => exact List.suffix_rfl
    | _ => exact List.suffix_rfl

theorem takeArrived_flatten (want : Nat) (arrivals : List (List UInt8)) :
    arrivals.flatten = (takeArrived want arrivals).1.1 ++ (takeArrived want arrivals).2.flatten := by
  cases arrivals with
  | nil => rfl
  | cons bs rest =>
      show bs ++ rest.flatten = bs.take want ++ (if bs.length ≤ want then rest else bs.drop want :: rest).flatten
      split_ifs with hall
      · rw [List.take_of_length_le hall]
      · rw [List.flatten_cons, ← List.append_assoc, List.take_append_drop]

/-! ### `read_exact` -/

section ReadExact

variable {len deadline lag : Nat} {w₀ : NetWorld}

/-- In the loop: what has been read is what has gone from the arrivals, and the deadline is not long past. -/
def ReadingFrom (len deadline lag : Nat) (w₀ : NetWorld) : CallPc → Unit × NetWorld → Prop
  | .reading got, (_, w) =>
      got.length ≤ len ∧ w₀.arrivals.flatten = got ++ w.arrivals.flatten ∧
        Elapses lag w₀ w 0 (deadline + 5 * lag + 5 - w₀.now)
  | _, (_, w) => w = w₀

/-- How `read_exact` returns; in vain only if the deadline has passed or its last look at the connection found it
closed. -/
def ReadReturns (len deadline lag : Nat) (w₀ : NetWorld) : Option (List UInt8) → Unit × NetWorld → Prop
  | some bs, (_, w) =>
      bs.length = len ∧ w₀.arrivals.flatten = bs ++ w.arrivals.flatten ∧ w.now ≤ deadline + 5 * lag + 5
  | none, (_, w) =>
      (∃ got, got.length < len ∧ w₀.arrivals.flatten = got ++ w.arrivals.flatten) ∧
        w.now ≤ deadline + 6 * lag + 5 ∧
        (deadline ≤ w.now ∨
          ∃ seen, w₀.firmware.choices.connections = seen ++ false :: w.firmware.choices.connections)

/-- What is left to read, and to wait. -/
def readMeasure (len deadline : Nat) : CallPc → Unit × NetWorld → Nat
  | .reading got, (_, w) => len - got.length + (deadline - w.now)
  | _, (_, w) => len + (deadline - w.now) + 1

/-- The connection is up, or there may be something left to read. -/
theorem tcpGone_ensures {w : NetWorld} (hlags : ∀ x ∈ w.lags, x ≤ lag) :
    tcpGone.Ensures netHandler (fun gone w' => Elapses lag w w'.2 0 (2 * lag) ∧ w'.2.arrivals = w.arrivals ∧
      (gone = true → w.firmware.choices.connections = false :: w'.2.firmware.choices.connections)) ((), w) := by
  have hup : Elapses lag w (netHandler (.fw .connected) ((), w)).2.2 0 (0 + lag) := netHandler_elapses hlags _
  refine .perform ?_
  generalize hans : (netHandler (.fw .connected) ((), w)).1 = up
  cases up with
  | true => exact ⟨hup.mono (Nat.le_refl 0) (by omega), rfl, fun h => by cases h⟩
  | false =>
      have hmore : Elapses lag (netHandler (.fw .connected) ((), w)).2.2
          (netHandler (.fw .available) (netHandler (.fw .connected) ((), w)).2).2.2 0 (0 + lag) :=
        netHandler_elapses hup.lags _
      exact ⟨(hup.trans hmore).mono (Nat.le_refl 0) (by omega), rfl, fun _ => draw_of_ne hans Bool.false_ne_true⟩

/-- The part of a turn that reads, before the deadline: `w` is the start of the turn. -/
theorem readSome_ensures {got : List UInt8} {w w' : NetWorld} (hmore : got.length < len)
    (hflat : w₀.arrivals.flatten = got ++ w'.arrivals.flatten) (hstart : Elapses lag w₀ w 0 (deadline - w₀.now))
    (hbefore : w.now < deadline) (hpasses : Elapses lag w w' 0 (deadline - 1 + 2 * lag - w.now)) :
    (do let bs ← net (.tcpRead (len - got.length))
        if bs.1 ≠ [] then return .inl (.reading (got ++ bs.1))
        else
          net .wdtReset
          net (.fw (.vTaskDelay 5))
          return .inl (.reading got) : NetProc (CallPc ⊕ Option (List UInt8))).Ensures netHandler
      (Loop.Advances (ReadingFrom len deadline lag w₀) (readMeasure len deadline) (ReadReturns len deadline lag w₀)
        (readMeasure len deadline (.reading got) ((), w))) ((), w') := by
  have hstartLeast := hstart.least
  have hleast := hpasses.least
  have hmost := hpasses.most
  generalize hworld : (netHandler (.tcpRead (len - got.length)) ((), w')).2.2 = w₁
  have hread : Elapses lag w' w₁ 0 (0 + lag) := hworld ▸ netHandler_elapses hpasses.lags _
  have hreadLeast := hread.least
  have hreadMost := hread.most
  refine .perform ?_
  generalize hanswer : (netHandler (.tcpRead (len - got.length)) ((), w')).1 = bs
  show Proc.Ensures netHandler _ (if bs.1 ≠ [] then _ else _) ((), (netHandler (.tcpRead _) ((), w')).2.2)
  rw [hworld]
  have hbytes : w'.arrivals.flatten = bs.1 ++ w₁.arrivals.flatten := by
    rw [← hworld, ← hanswer]
    exact takeArrived_flatten _ _
  have hmax := bs.2
  by_cases hbs : bs.1 ≠ []
  · have hsome := List.length_pos_of_ne_nil hbs
    rw [if_pos hbs]
    refine ⟨⟨?_, ?_, hstartLeast.trans ?_, ?_, hread.lags, ?_⟩, ?_⟩
    · rw [List.length_append]
      omega
    · rw [hflat, hbytes, List.append_assoc]
    · omega
    · omega
    · exact (hread.connections.trans hpasses.connections).trans hstart.connections
    · show len - (got ++ bs.1).length + (deadline - w₁.now) < len - got.length + (deadline - w.now)
      rw [List.length_append]
      omega
  · rw [if_neg hbs]
    have hnil : bs.1 = [] := not_not.mp hbs
    have hreset : Elapses lag w₁ (w₁.pass 0) 0 (0 + lag) := netHandler_elapses hread.lags .wdtReset
    have hdelay : Elapses lag (w₁.pass 0) ((w₁.pass 0).pass 5) 5 (5 + lag) :=
      netHandler_elapses hreset.lags (.fw (.vTaskDelay 5))
    have hwait := hreset.trans hdelay
    have hwaitLeast := hwait.least
    have hwaitMost := hwait.most
    refine ⟨⟨hmore.le, ?_, ?_, ?_, hwait.lags, ?_⟩, ?_⟩
    · rw [hflat, hbytes, hnil]
      rfl
    · show w₀.now + 0 ≤ ((w₁.pass 0).pass 5).now
      omega
    · show ((w₁.pass 0).pass 5).now ≤ _
      omega
    · exact ((hwait.connections.trans hread.connections).trans hpasses.connections).trans hstart.connections
    · show len - got.length + (deadline - ((w₁.pass 0).pass 5).now) < len - got.length + (deadline - w.now)
      omega

/-- A turn of the loop. -/
theorem readExact_turn (hlag : lag ≤ 2 ^ 28) (hstart : w₀.now ≤ deadline) (hsoon : deadline ≤ w₀.now + 2 ^ 31)
    (hlags : ∀ x ∈ w₀.lags, x ≤ lag) (k : CallPc) (w : Unit × NetWorld)
    (hJ : ReadingFrom len deadline lag w₀ k w) :
    (readExact len (.ofNat deadline) k).Ensures netHandler
      (Loop.Advances (ReadingFrom len deadline lag w₀) (readMeasure len deadline) (ReadReturns len deadline lag w₀)
        (readMeasure len deadline k w)) w := by
  obtain ⟨⟨⟩, w⟩ := w
  have hbegin : (readExact len (.ofNat deadline) .start).Ensures netHandler
      (Loop.Advances (ReadingFrom len deadline lag w₀) (readMeasure len deadline) (ReadReturns len deadline lag w₀)
        (len + (deadline - w₀.now) + 1)) ((), w₀) := by
    refine ⟨⟨Nat.zero_le len, rfl, Nat.le_refl _, by omega, hlags, List.suffix_rfl⟩, ?_⟩
    exact Nat.lt_succ_self _
  cases k with
  | reading got =>
      obtain ⟨hlen, hflat, hpasses⟩ := hJ
      have hnow := hpasses.least
      have hmost := hpasses.most
      rw [readExact]
      split_ifs with hmore
      · have hclock : Elapses lag w (w.pass 0) 0 (0 + lag) := netHandler_elapses hpasses.lags (.fw .millis)
        have hclockLeast := hclock.least
        have hclockMost := hclock.most
        refine .perform ?_
        show Proc.Ensures netHandler _ (if 0 ≤ (UInt32.ofNat (w.pass 0).now - UInt32.ofNat deadline).toInt32 then _
          else _) ((), w.pass 0)
        simp only [late_iff (show deadline ≤ (w.pass 0).now + 2 ^ 31 by omega)
          (show (w.pass 0).now < deadline + 2 ^ 31 by omega)]
        by_cases hlate : deadline ≤ (w.pass 0).now
        · rw [if_pos hlate]
          exact ⟨⟨got, hmore, hflat⟩, by omega, Or.inl hlate⟩
        · rw [if_neg hlate]
          refine (tcpGone_ensures hclock.lags).bind ?_
          rintro gone ⟨⟨⟩, w'⟩ ⟨hgone, harrivals, hfalse⟩
          have hgoneMost : w'.now ≤ (w.pass 0).now + 2 * lag := hgone.most
          have hall := hclock.trans hgone
          cases gone with
          | true =>
              obtain ⟨seen, hseen⟩ := hpasses.connections
              refine ⟨⟨got, hmore, ?_⟩, ?_, Or.inr ⟨seen, ?_⟩⟩
              · rw [harrivals]
                exact hflat
              · show w'.now ≤ deadline + 6 * lag + 5
                omega
              · rw [← hfalse rfl]
                exact hseen.symm
          | false =>
              refine readSome_ensures hmore ?_ ⟨hpasses.least, ?_, hpasses.lags, hpasses.connections⟩ ?_
                ⟨hall.least, ?_, hall.lags, hall.connections⟩
              · rw [harrivals]
                exact hflat
              · omega
              · omega
              · omega
      · exact ⟨Nat.le_antisymm hlen (Nat.le_of_not_lt hmore), hflat, by omega⟩
  | start =>
      cases hJ
      exact hbegin
  | joining start =>
      cases hJ
      exact hbegin
  | waiting waited =>
      cases hJ
      exact hbegin

end ReadExact

/-- **`read_exact` keeps its deadline.** Called with a deadline at most 24 days ahead, whenever the clock wraps and
however the bytes arrive, `read_exact` returns, at most 5 ms and the calls of one turn after the deadline. What it
gives is the next `len` bytes of the stream, and they are gone from it; if it gives none, fewer than `len` bytes are
gone, and the deadline has passed or the connection was found closed. -/
theorem readExact_in_time (len deadline lag : Nat) (w : NetWorld) (hlag : lag ≤ 2 ^ 28) (hlags : ∀ x ∈ w.lags, x ≤ lag)
    (hstart : w.now ≤ deadline) (hsoon : deadline ≤ w.now + 2 ^ 31) :
    ∃ out, Loop.Ends (readExact len (.ofNat deadline)) netHandler .start ((), w) out ∧
      ReadReturns len deadline lag w out.value out.world :=
  Loop.ends_ensuring (readMeasure len deadline) (readExact_turn hlag hstart hsoon hlags) rfl

/-- Six bytes in three parts, three milliseconds before the clock wraps. -/
def wrapping : NetWorld where
  firmware := .start ⟨[], [], [], [], [], [], [], []⟩
  statuses := []
  arrivals := [[1, 2], [], [3, 4, 5, 6]]
  now := 2 ^ 32 - 3
  lags := [0, 1, 0, 2]

theorem readExact_in_time_wrapping :
    (Loop.exec (readExact 4 (.ofNat (2 ^ 32 + 1997))) netHandler 9 .start ((), wrapping)).map Outcome.value =
        some (some [1, 2, 3, 4]) ∧
      ∃ out, Loop.Ends (readExact 4 (.ofNat (2 ^ 32 + 1997))) netHandler .start ((), wrapping) out ∧
        ReadReturns 4 (2 ^ 32 + 1997) 2 wrapping out.value out.world :=
  ⟨by decide +kernel, readExact_in_time 4 (2 ^ 32 + 1997) 2 wrapping (by decide) (by decide) (by decide) (by decide)⟩

/-! ### `wifi_ensure` -/

section WifiEnsure

variable {lag : Nat} {w₀ : NetWorld}

/-- In the loop that waits for Wi-Fi, which began at `began`. -/
def JoiningFrom (lag : Nat) (w₀ : NetWorld) : CallPc → Unit × NetWorld → Prop
  | .joining start, (_, w) => ∃ began, start = .ofNat began ∧ Elapses lag w₀ w 0 (15250 + 6 * lag) ∧
      w₀.now ≤ began ∧ began ≤ w₀.now + 4 * lag ∧ began ≤ w.now ∧ w.statuses <:+ w₀.statuses
  | _, (_, w) => w = w₀

/-- How `wifi_ensure` returns; with no before its time only if its last two looks found Wi-Fi up and then not. -/
def WifiReturns (lag : Nat) (w₀ : NetWorld) (ok : Bool) (w : Unit × NetWorld) : Prop :=
  w.2.now ≤ w₀.now + 15250 + 9 * lag ∧ (ok = false → w₀.now + 15000 ≤ w.2.now ∨
    ∃ seen, w₀.statuses = seen ++ true :: false :: w.2.statuses)

def wifiMeasure (lag : Nat) (w₀ : NetWorld) : CallPc → Unit × NetWorld → Nat
  | .joining _, (_, w) => w₀.now + 4 * lag + 15000 - w.now
  | _, _ => 4 * lag + 15001

theorem elapsed_lt_iff {n start : Nat} (hstart : start ≤ n) (hround : n < start + 2 ^ 32) :
    UInt32.ofNat n - UInt32.ofNat start < 15000 ↔ n < start + 15000 := by
  rw [UInt32.lt_iff_toNat_lt, UInt32.toNat_sub, UInt32.toNat_ofNat', UInt32.toNat_ofNat']
  show (2 ^ 32 - start % 2 ^ 32 + n % 2 ^ 32) % 2 ^ 32 < 15000 ↔ _
  omega

/-- Wi-Fi was up and then was not. -/
theorem up_of_flap {l : List Bool} (hup : (draw true l).1 = true) (hdown : (draw true (draw true l).2).1 = false) :
    l = true :: false :: (draw true (draw true l).2).2 := by
  have hrest := draw_of_ne hdown Bool.false_ne_true
  cases l with
  | nil => cases hrest
  | cons up rest =>
      rw [← hrest, show up = true from hup]
      rfl

/-- The first part, up to the loop. -/
theorem wifiEnsure_start (hlag : lag ≤ 2 ^ 28) (hlags : ∀ x ∈ w₀.lags, x ≤ lag) :
    (wifiEnsure .start).Ensures netHandler
      (Loop.Advances (JoiningFrom lag w₀) (wifiMeasure lag w₀) (WifiReturns lag w₀) (4 * lag + 15001)) ((), w₀) := by
  have hreset : Elapses lag w₀ (w₀.pass 0) 0 (0 + lag) := netHandler_elapses hlags .wdtReset
  have hstatus : Elapses lag (w₀.pass 0) (netHandler .wifiStatus ((), w₀.pass 0)).2.2 0 (0 + lag) :=
    netHandler_elapses hreset.lags _
  generalize hworld : (netHandler .wifiStatus ((), w₀.pass 0)).2.2 = w₁ at hstatus
  have hstatuses : w₁.statuses <:+ w₀.statuses := by
    rw [← hworld]
    exact draw_suffix _ _
  have hbegin : Elapses lag w₁ (w₁.pass 0) 0 (0 + lag) := netHandler_elapses hstatus.lags .wifiBegin
  have hclock : Elapses lag (w₁.pass 0) ((w₁.pass 0).pass 0) 0 (0 + lag) :=
    netHandler_elapses hbegin.lags (.fw .millis)
  have htwo := hreset.trans hstatus
  have hall := htwo.trans (hbegin.trans hclock)
  have htwoMost := htwo.most
  have hallLeast := hall.least
  have hallMost := hall.most
  refine .perform (.perform ?_)
  show Proc.Ensures netHandler _ (if (netHandler .wifiStatus ((), w₀.pass 0)).1 then _ else _)
    ((), (netHandler .wifiStatus ((), w₀.pass 0)).2.2)
  rw [hworld]
  split_ifs with hup
  · exact ⟨show w₁.now ≤ w₀.now + 15250 + 9 * lag by omega, fun h => by cases h⟩
  · refine ⟨⟨((w₁.pass 0).pass 0).now, rfl, hall.mono (Nat.le_refl _) ?_, ?_, ?_, Nat.le_refl _, hstatuses⟩, ?_⟩
    · omega
    · omega
    · omega
    · show w₀.now + 4 * lag + 15000 - ((w₁.pass 0).pass 0).now < 4 * lag + 15001
      omega

theorem wifiEnsure_turn (hlag : lag ≤ 2 ^ 28) (hlags : ∀ x ∈ w₀.lags, x ≤ lag) (k : CallPc) (w : Unit × NetWorld)
    (hJ : JoiningFrom lag w₀ k w) :
    (wifiEnsure k).Ensures netHandler
      (Loop.Advances (JoiningFrom lag w₀) (wifiMeasure lag w₀) (WifiReturns lag w₀) (wifiMeasure lag w₀ k w)) w := by
  obtain ⟨⟨⟩, w⟩ := w
  cases k with
  | joining start =>
      obtain ⟨began, rfl, hpasses, hafter, hsoon, hbegan, hstatuses⟩ := hJ
      have hmost := hpasses.most
      have hstatus : Elapses lag w (netHandler .wifiStatus ((), w)).2.2 0 (0 + lag) :=
        netHandler_elapses hpasses.lags _
      have hrest : (netHandler .wifiStatus ((), w)).2.2.statuses = (draw true w.statuses).2 := rfl
      generalize hworld : (netHandler .wifiStatus ((), w)).2.2 = w₁ at hstatus hrest
      have hstatusMost := hstatus.most
      have hstatusLeast := hstatus.least
      have hlast := netHandler_elapses hstatus.lags .wifiStatus
      refine .perform ?_
      show Proc.Ensures netHandler _ (if (draw true w.statuses).1 = true then _ else _)
        ((), (netHandler .wifiStatus ((), w)).2.2)
      rw [hworld]
      split_ifs with hup
      · refine ⟨?_, fun hdown => Or.inr ?_⟩
        · have hlastMost : (netHandler .wifiStatus ((), w₁)).2.2.now ≤ w₁.now + (0 + lag) := hlast.most
          show (netHandler .wifiStatus ((), w₁)).2.2.now ≤ _
          omega
        · obtain ⟨seen, hseen⟩ := hstatuses
          have hflap : w.statuses = true :: false :: (draw true w₁.statuses).2 := by
            have hdown' : (draw true w₁.statuses).1 = false := hdown
            rw [hrest] at hdown' ⊢
            exact up_of_flap hup hdown'
          exact ⟨seen, by rw [← hseen, hflap]; rfl⟩
      · have hclock : Elapses lag w₁ (w₁.pass 0) 0 (0 + lag) := netHandler_elapses hstatus.lags (.fw .millis)
        have hclockLeast := hclock.least
        have hclockMost := hclock.most
        refine .perform ?_
        show Proc.Ensures netHandler _ (if UInt32.ofNat (w₁.pass 0).now - UInt32.ofNat began < 15000 then _ else _)
          ((), w₁.pass 0)
        simp only [elapsed_lt_iff (show began ≤ (w₁.pass 0).now by omega)
          (show (w₁.pass 0).now < began + 2 ^ 32 by omega)]
        split_ifs with hmore
        · have hreset : Elapses lag (w₁.pass 0) ((w₁.pass 0).pass 0) 0 (0 + lag) :=
            netHandler_elapses hclock.lags .wdtReset
          have hdelay : Elapses lag ((w₁.pass 0).pass 0) (((w₁.pass 0).pass 0).pass 250) 250 (250 + lag) :=
            netHandler_elapses hreset.lags (.fw (.vTaskDelay 250))
          have hwait := hreset.trans hdelay
          have hwaitLeast := hwait.least
          have hwaitMost := hwait.most
          have hall := hpasses.trans (hstatus.trans (hclock.trans hwait))
          refine ⟨⟨began, rfl, ⟨hall.least.trans' (Nat.le_add_right _ _), ?_, hall.lags, hall.connections⟩, hafter,
            hsoon, ?_, ?_⟩, ?_⟩
          · show (((w₁.pass 0).pass 0).pass 250).now ≤ _
            omega
          · show _ ≤ (((w₁.pass 0).pass 0).pass 250).now
            omega
          · show w₁.statuses <:+ w₀.statuses
            rw [hrest]
            exact (draw_suffix _ _).trans hstatuses
          · show w₀.now + 4 * lag + 15000 - (((w₁.pass 0).pass 0).pass 250).now < w₀.now + 4 * lag + 15000 - w.now
            omega
        · have hlast : Elapses lag (w₁.pass 0) (netHandler .wifiStatus ((), w₁.pass 0)).2.2 0 (0 + lag) :=
            netHandler_elapses hclock.lags _
          have hlastLeast := hlast.least
          have hlastMost := hlast.most
          refine ⟨?_, fun _ => Or.inl ?_⟩
          · show (netHandler .wifiStatus ((), w₁.pass 0)).2.2.now ≤ _
            omega
          · show _ ≤ (netHandler .wifiStatus ((), w₁.pass 0)).2.2.now
            omega
  | start =>
      cases hJ
      exact wifiEnsure_start hlag hlags
  | reading got =>
      cases hJ
      exact wifiEnsure_start hlag hlags
  | waiting waited =>
      cases hJ
      exact wifiEnsure_start hlag hlags

end WifiEnsure

/-! ### `backoff_wait` -/

section BackoffWait

variable {lag : Nat} {w₀ : NetWorld} {ms : UInt32}

/-- In the loop that waits for half a second at a time. -/
def WaitingFrom (lag : Nat) (w₀ : NetWorld) (ms : UInt32) : CallPc → Unit × NetWorld → Prop
  | .waiting waited, (_, w) => ∃ n, waited = .ofNat (500 * n) ∧ 500 * n < ms.toNat + 500 ∧
      Elapses lag w₀ w (500 * n) (n * (500 + 2 * lag))
  | _, (_, w) => w = w₀

/-- How `backoff_wait` returns: after its time, rounded up to half seconds. -/
def WaitReturns (lag : Nat) (w₀ : NetWorld) (ms : UInt32) (_ : Unit) (w : Unit × NetWorld) : Prop :=
  w₀.now + (ms.toNat + 499) / 500 * 500 ≤ w.2.now ∧ w.2.now ≤ w₀.now + (ms.toNat + 499) / 500 * (500 + 2 * lag)

def waitMeasure (ms : UInt32) : CallPc → Unit × NetWorld → Nat
  | .waiting waited, _ => ms.toNat + 500 - waited.toNat
  | _, _ => ms.toNat + 501

theorem backoffWait_turn (hms : ms ≤ BACKOFF_MAX_MS) (hlags : ∀ x ∈ w₀.lags, x ≤ lag) (k : CallPc)
    (w : Unit × NetWorld) (hJ : WaitingFrom lag w₀ ms k w) :
    (backoffWait ms k).Ensures netHandler
      (Loop.Advances (WaitingFrom lag w₀ ms) (waitMeasure ms) (WaitReturns lag w₀ ms) (waitMeasure ms k w)) w := by
  obtain ⟨⟨⟩, w⟩ := w
  have hmax : ms.toNat ≤ 16000 := UInt32.le_iff_toNat_le.mp hms
  have hbegin : (backoffWait ms .start).Ensures netHandler
      (Loop.Advances (WaitingFrom lag w₀ ms) (waitMeasure ms) (WaitReturns lag w₀ ms) (ms.toNat + 501)) ((), w₀) := by
    refine ⟨⟨0, rfl, by omega, Nat.le_refl _, Nat.le_add_right _ _, hlags, List.suffix_rfl⟩, ?_⟩
    show ms.toNat + 500 - 0 < ms.toNat + 501
    omega
  cases k with
  | waiting waited =>
      obtain ⟨n, rfl, hn, hpasses⟩ := hJ
      have hwaited : ∀ k, 500 * k ≤ ms.toNat + 500 → (UInt32.ofNat (500 * k)).toNat = 500 * k := by
        intro k hk
        rw [UInt32.toNat_ofNat']
        omega
      have hless : UInt32.ofNat (500 * n) < ms ↔ 500 * n < ms.toNat := by
        rw [UInt32.lt_iff_toNat_lt, hwaited n hn.le]
      rw [backoffWait]
      simp only [hless]
      split_ifs with hmore
      · have hreset : Elapses lag w (w.pass 0) 0 (0 + lag) := netHandler_elapses hpasses.lags .wdtReset
        have hdelay : Elapses lag (w.pass 0) ((w.pass 0).pass 500) 500 (500 + lag) :=
          netHandler_elapses hreset.lags (.fw (.vTaskDelay 500))
        have hall := hpasses.trans (hreset.trans hdelay)
        refine ⟨⟨n + 1, ?_, by omega, hall.mono (by omega) ?_⟩, ?_⟩
        · rw [Nat.mul_add, UInt32.ofNat_add]
          rfl
        · rw [Nat.add_mul]
          omega
        · show ms.toNat + 500 - (UInt32.ofNat (500 * n) + 500).toNat < ms.toNat + 500 - (UInt32.ofNat (500 * n)).toNat
          have hnext : UInt32.ofNat (500 * n) + 500 = .ofNat (500 * (n + 1)) := by
            rw [Nat.mul_add, UInt32.ofNat_add]
            rfl
          rw [hnext, hwaited n hn.le, hwaited (n + 1) (by omega)]
          omega
      · have hturns : n = (ms.toNat + 499) / 500 := by omega
        have hleast := hpasses.least
        have hmost := hpasses.most
        rw [hturns] at hmost
        exact ⟨show w₀.now + (ms.toNat + 499) / 500 * 500 ≤ w.now by omega, hmost⟩
  | start =>
      cases hJ
      exact hbegin
  | joining start =>
      cases hJ
      exact hbegin
  | reading got =>
      cases hJ
      exact hbegin

end BackoffWait

/-- **The waits of `net_task` are bounded.** `wifi_ensure` returns within 15.25 s and the time of its own calls, and
says no before its 15 s are over only if Wi-Fi came up and was lost again. `backoff_wait` returns, after its time
rounded up to half seconds and that of its calls. -/
theorem waits_bounded (lag : Nat) (w : NetWorld) (hlag : lag ≤ 2 ^ 28) (hlags : ∀ x ∈ w.lags, x ≤ lag) :
    (∃ out, Loop.Ends wifiEnsure netHandler .start ((), w) out ∧ WifiReturns lag w out.value out.world) ∧
      ∀ ms, ms ≤ BACKOFF_MAX_MS →
        ∃ out, Loop.Ends (backoffWait ms) netHandler .start ((), w) out ∧ WaitReturns lag w ms out.value out.world :=
  ⟨Loop.ends_ensuring (wifiMeasure lag w) (wifiEnsure_turn hlag hlags) rfl,
    fun ms hms => Loop.ends_ensuring (waitMeasure ms) (backoffWait_turn hms hlags) rfl⟩

/-- Wi-Fi comes up at the third look and is lost at the fourth. -/
def flapping : NetWorld where
  firmware := .start ⟨[], [], [], [], [], [], [], []⟩
  statuses := [false, false, true, false]
  arrivals := []
  now := 2 ^ 32 - 100
  lags := [3, 0, 7]

theorem waits_bounded_flapping :
    (Loop.exec wifiEnsure netHandler 5 .start ((), flapping)).map
        (fun out => (out.value, out.world.2.now - flapping.now)) = some (false, 260) ∧
      (∃ out, Loop.Ends wifiEnsure netHandler .start ((), flapping) out ∧
        WifiReturns 7 flapping out.value out.world) ∧
      ∃ out, Loop.Ends (backoffWait 16000) netHandler .start ((), flapping) out ∧
        WaitReturns 7 flapping 16000 out.value out.world := by
  have hbounded := waits_bounded 7 flapping (by decide) (by decide)
  exact ⟨by decide +kernel, hbounded.1, hbounded.2 16000 (by decide)⟩

end PulseLink
