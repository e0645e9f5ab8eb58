import PulseLink.BasePrintf
import PulseLink.DeviceTable
import PulseLink.Tring

/-! Readings as text. Temperatures and humidities are kept in hundredths; the device table of `dt_dump`, the
lines of `telemetry_cat` and the display of the firmware all print them as `v / 100`, a point and the two digits
of `abs(v % 100)`. The integer part carries the sign, and between -1 and 0 it has none. -/

namespace PulseLink

open Printf

/-- `abs` of an `int`; the firmware writes it out. -/
def absInt (v : Int32) : Int32 := if v < 0 then -v else v

/-- `%*d.%02d` of `v / 100` and `abs(v % 100)`. -/
def centiText (width : Nat) (v : Int32) : List Char :=
  padLeft width (decimal (v / 100).toInt) ++ '.' :: zeroDecimal 2 (absInt (v % 100)).toInt

/-! ### Where readings are printed -/

def DevState.text : DevState → List Char
  | .online => "ONLINE".toList
  | .offline => "OFFLINE".toList

/-- The line of `dt_dump` for a device. -/
def dtDumpRow (d : Device) : List Char :=
  "  0x".toList ++ zeroHex 8 d.id.toNat ++ " ".toList ++ padRight 7 (unsigned d.sessionId.toNat) ++ " ".toList ++
    padRight 7 d.state.text ++ " ".toList ++ padRight 8 (unsigned d.packetsOk.toNat) ++ " ".toList ++
    padRight 8 (unsigned d.packetsBad.toNat) ++ " ".toList ++ centiText 3 d.lastTemp ++ " ".toList ++
    centiText 3 d.lastHumid ++ "\n".toList

/-- The titles of the columns. -/
def dtDumpTitles : List Char :=
  "  ".toList ++ padRight 10 "device".toList ++ " ".toList ++ padRight 7 "session".toList ++ " ".toList ++
    padRight 7 "state".toList ++ " ".toList ++ padRight 8 "ok".toList ++ " ".toList ++ padRight 8 "bad".toList ++
    " ".toList ++ padRight 7 "temp".toList ++ " ".toList ++ padRight 7 "humid".toList ++ "\n".toList

/-- `dt_dump` of a table that nobody changes meanwhile: the chains in order, a line for each device. -/
def dtDump (t : DeviceTable) : List Char :=
  "==== device table (".toList ++ unsigned t.deviceCount.toNat ++ " devices) ====\n".toList ++ dtDumpTitles ++
    ((List.finRange TABLE_BUCKETS).flatMap fun i =>
      (t.buckets i).flatMap fun p => ((t.heap[p]?).map dtDumpRow).getD []) ++
    "===================================\n".toList

/-- The line of `telemetry_cat` for a record. -/
def telemetryCatLine (r : TelemetryRecord) : List Char :=
  "dev=0x".toList ++ zeroHex 8 r.deviceId.toNat ++ " seq=".toList ++ padRight 6 (unsigned r.seq.toNat) ++
    "  ".toList ++ centiText 4 r.temperature ++ " C  ".toList ++ centiText 4 r.humidity ++ " %  ts=".toList ++
    unsigned r.serverTimestampNs.toNat ++ "\n".toList

/-- The two lines of `display_task` with the last reading. -/
def displayReading (temp hum : Int32) : List Char :=
  "temp: ".toList ++ centiText 0 temp ++ " C\n".toList ++ "hum : ".toList ++ centiText 0 hum ++ " %\n".toList

/-! ### What the text denotes -/

theorem toInt_absInt {v : Int32} (hv : -2 ^ 31 < v.toInt) : (absInt v).toInt = v.toInt.natAbs := by
  have hlt := v.toInt_lt
  rw [absInt]
  split_ifs with hneg
  · have hneg' : v.toInt < 0 := Int32.lt_iff_toInt_lt.mp hneg
    rw [Int32.toInt_neg, Int.bmod_eq_of_le (by omega) (by omega)]
    omega
  · have hnonneg : ¬ v.toInt < 0 := fun h => hneg (Int32.lt_iff_toInt_lt.mpr h)
    omega

theorem centiText_eq (width : Nat) (v : Int32) :
    centiText width v =
      padLeft width (decimal (v.toInt.tdiv 100)) ++ '.' :: zeroDecimal 2 ((v.toInt.natAbs % 100 : Nat) : Int) := by
  have hwhole : (v / 100).toInt = v.toInt.tdiv 100 := Int32.toInt_div_of_ne_right v 100 (by decide)
  have hcents : (absInt (v % 100)).toInt = (v.toInt.natAbs % 100 : Nat) := by
    have hmod : (v % 100).toInt = v.toInt.tmod 100 := Int32.toInt_mod v 100
    have hnatAbs : (v.toInt.tmod 100).natAbs = v.toInt.natAbs % 100 := Int.natAbs_tmod _ _
    rw [toInt_absInt (by omega), hmod, hnatAbs]
  rw [centiText, hwhole, hcents]

theorem tdiv_hundred (v : Int) : v.tdiv 100 = if 0 ≤ v then v / 100 else -(-v / 100) := by
  split_ifs with hnonneg
  · exact Int.tdiv_eq_ediv_of_nonneg hnonneg
  · rw [← Int.tdiv_eq_ediv_of_nonneg (by omega), Int.neg_tdiv, Int.neg_neg]

/-- What the text says, in hundredths: above -100 the sign is lost. -/
def shownCenti (v : Int) : Int := if v ≤ -100 then v else v.natAbs

theorem shownCenti_eq_self_iff {v : Int} : shownCenti v = v ↔ v ≤ -100 ∨ 0 ≤ v := by
  rw [shownCenti]
  omega

theorem shownCenti_inj_iff {u v : Int} : shownCenti u = shownCenti v ↔ u = v ∨ (u = -v ∧ v.natAbs < 100) := by
  rw [shownCenti, shownCenti]
  omega

theorem value_centiText (width : Nat) (v : Int32) :
    value (centiText width v) = some ((shownCenti v.toInt : ℚ) / 100) := by
  have hlen : (zeroDecimal 2 ((v.toInt.natAbs % 100 : Nat) : Int)).length = 2 :=
    length_zeroDecimal (by decide) (Nat.mod_lt _ (by decide))
  have hwhole : (v.toInt.tdiv 100).natAbs = v.toInt.natAbs / 100 := Int.natAbs_tdiv _ _
  have hsplit : (v.toInt.natAbs : ℚ) = 100 * (v.toInt.natAbs / 100 : Nat) + (v.toInt.natAbs % 100 : Nat) := by
    exact_mod_cast (Nat.div_add_mod v.toInt.natAbs 100).symm
  -- the sign printed is that of the integer part, which is 0 above -100
  have hshown : (shownCenti v.toInt : ℚ) = (if v.toInt.tdiv 100 < 0 then -1 else 1) * (v.toInt.natAbs : ℚ) := by
    rw [shownCenti]
    by_cases hlow : v.toInt ≤ -100
    · have habs : (v.toInt : ℚ) = -(v.toInt.natAbs : ℚ) := by
        exact_mod_cast (show v.toInt = -(v.toInt.natAbs : Int) by omega)
      rw [if_pos hlow, if_pos (by rw [tdiv_hundred]; omega), habs, neg_one_mul]
    · rw [if_neg hlow, if_neg (by rw [tdiv_hundred]; omega), one_mul]
      exact Int.cast_natCast _
  rw [centiText_eq, value_decimal_point width _ (value?_zeroDecimal 2 (v.toInt.natAbs % 100)), hlen, hwhole, hshown,
    hsplit]
  congr 1
  ring

/-- The text depends on what it says, and on nothing else. -/
theorem centiText_congr (width : Nat) {u v : Int32} (hshown : shownCenti u.toInt = shownCenti v.toInt) :
    centiText width u = centiText width v := by
  rcases shownCenti_inj_iff.mp hshown with heq | ⟨hopposite, hsmall⟩
  · rw [Int32.toInt_inj.mp heq]
  · -- both integer parts are 0
    have hu : u.toInt.tdiv 100 = 0 := by rw [tdiv_hundred]; omega
    have hv : v.toInt.tdiv 100 = 0 := by rw [tdiv_hundred]; omega
    rw [centiText_eq, centiText_eq, hu, hv, hopposite, Int.natAbs_neg]

theorem centiText_inj_iff (width : Nat) {u v : Int32} :
    centiText width u = centiText width v ↔ shownCenti u.toInt = shownCenti v.toInt := by
  refine ⟨fun htext => ?_, centiText_congr width⟩
  have hvalue := congrArg value htext
  rw [value_centiText, value_centiText, Option.some_inj, div_left_inj' (by norm_num)] at hvalue
  exact_mod_cast hvalue

/-- **Readings are printed faithfully, except just below zero.** For every field width and every 32-bit reading
`v`, in hundredths: the text denotes `v / 100` exactly if `v` is not between -100 and 0, and two readings are
printed alike only if they are the same or are opposite and less than one unit from zero. -/
theorem centiText_faithful_iff (width : Nat) :
    (∀ v : Int32, value (centiText width v) = some ((v.toInt : ℚ) / 100) ↔ v.toInt ≤ -100 ∨ 0 ≤ v.toInt) ∧
    ∀ u v : Int32,
      centiText width u = centiText width v ↔ u = v ∨ (u.toInt = -v.toInt ∧ v.toInt.natAbs < 100) := by
  constructor
  · intro v
    rw [value_centiText, Option.some_inj, div_left_inj' (by norm_num), ← shownCenti_eq_self_iff]
    exact Int.cast_inj
  · intro u v
    rw [centiText_inj_iff, shownCenti_inj_iff, Int32.toInt_inj]

section Alike

variable {t t' : Int32}

theorem dtDumpRow_congr (htext : centiText 3 t = centiText 3 t') (d : Device) :
    dtDumpRow { d with lastTemp := t } = dtDumpRow { d with lastTemp := t' } := by
  unfold dtDumpRow
  rw [htext]

/-- The dump shows of the devices what their lines show. -/
theorem dtDump_congr (table : DeviceTable) {heap heap' : List Device}
    (hrows : heap.map dtDumpRow = heap'.map dtDumpRow) :
    dtDump { table with heap := heap } = dtDump { table with heap := heap' } := by
  have hrow : ∀ p : Nat, (heap[p]?).map dtDumpRow = (heap'[p]?).map dtDumpRow := by
    intro p
    rw [← List.getElem?_map, hrows, List.getElem?_map]
  unfold dtDump
  simp only [hrow]

theorem telemetryCatLine_congr (htext : centiText 4 t = centiText 4 t') (r : TelemetryRecord) :
    telemetryCatLine { r with temperature := t } = telemetryCatLine { r with temperature := t' } := by
  unfold telemetryCatLine
  rw [htext]

theorem displayReading_congr (htext : centiText 0 t = centiText 0 t') (hum : Int32) :
    displayReading t hum = displayReading t' hum := by
  unfold displayReading
  rw [htext]

end Alike

/-- A reading of -0.50 is printed as 0.50: neither the dump of the table nor the lines of the reader and of the
display tell it from the opposite reading. -/
theorem negative_half_printed_positive :
    value (centiText 3 (-50)) = some (50 / 100) ∧
      (∀ (table : DeviceTable) (i : Nat) (d : Device),
        dtDump { table with heap := table.heap.set i { d with lastTemp := -50 } } =
          dtDump { table with heap := table.heap.set i { d with lastTemp := 50 } }) ∧
      (∀ r : TelemetryRecord, telemetryCatLine { r with temperature := -50 } =
        telemetryCatLine { r with temperature := 50 }) ∧
      ∀ hum, displayReading (-50) hum = displayReading 50 hum := by
  have halike : ∀ width, centiText width (-50) = centiText width 50 := fun width => centiText_congr width (by decide)
  refine ⟨by decide +kernel, fun table i d => ?_, telemetryCatLine_congr (halike 4), displayReading_congr (halike 0)⟩
  refine dtDump_congr table ?_
  rw [List.map_set, List.map_set, dtDumpRow_congr (halike 3)]

end PulseLink
