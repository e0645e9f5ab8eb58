import PulseLink.BaseQueue

/-! The record ring of `kmod/tring.c`. Its valid slots, read from the oldest on, are a bounded queue that
drops its oldest record when full. -/

namespace PulseLink

/-- `struct telemetry_record`, 24 bytes. -/
structure TelemetryRecord where
  deviceId : UInt32
  seq : UInt32
  temperature : Int32
  humidity : Int32
  serverTimestampNs : UInt64
  deriving DecidableEq, Repr, Inhabited

def TRING_CAP : UInt32 := 256

/-- `struct tring`. -/
structure Tring where
  buf : List TelemetryRecord
  head : UInt32
  count : UInt32
  produced : UInt64
  dropped : UInt64
  size : buf.length = 256
  deriving DecidableEq, Repr

/-- `tring_init`; the slots keep what they hold. -/
def tringInit (r : Tring) : Tring :=
  { r with head := 0, count := 0, produced := 0, dropped := 0 }

/-- `buf[i] = rec`. -/
def Tring.store (r : Tring) (i : UInt32) (rec : TelemetryRecord) : Tring :=
  { r with
    buf := r.buf.set i.toNat rec
    size := by rw [List.length_set, r.size] }

/-- `tring_push`: whether a record was overwritten, and the ring. -/
def tringPush (r : Tring) (rec : TelemetryRecord) : Bool × Tring :=
  if r.count = TRING_CAP then
    let r := { r with dropped := r.dropped + 1 }
    let r := r.store r.head rec
    let r := { r with head := (r.head + 1) % TRING_CAP }
    (true, { r with produced := r.produced + 1 })
  else
    let r := r.store r.head rec
    let r := { r with head := (r.head + 1) % TRING_CAP, count := r.count + 1 }
    (false, { r with produced := r.produced + 1 })

/-- The slot of the oldest record. -/
def Tring.tail (r : Tring) : UInt32 := (r.head - r.count + TRING_CAP) % TRING_CAP

/-- `tring_pop`. -/
def tringPop (r : Tring) : Option TelemetryRecord × Tring :=
  if r.count = 0 then (none, r)
  else (some (r.buf.getD r.tail.toNat default), { r with count := r.count - 1 })

/-- The loop of `tlm_read`: pops until `want` records are out or the ring is empty. -/
def tringPopUpTo : Nat → Tring → List TelemetryRecord × Tring
  | 0, r => ([], r)
  | want + 1, r =>
      match tringPop r with
      | (none, r) => ([], r)
      | (some rec, r) => (rec :: (tringPopUpTo want r).1, (tringPopUpTo want r).2)

/-! ### The ring as a queue -/

namespace Tring

/-- The indices of a ring in use stay in range. -/
structure Valid (r : Tring) : Prop where
  head_lt : r.head.toNat < 256
  count_le : r.count.toNat ≤ 256

/-- The record `i` places behind the oldest. -/
def nth (r : Tring) (i : Nat) : TelemetryRecord :=
  r.buf.getD ((r.head.toNat + 256 - r.count.toNat + i) % 256) default

/-- The records of the ring, oldest first. -/
def contents (r : Tring) : List TelemetryRecord := (List.range r.count.toNat).map r.nth

theorem length_contents (r : Tring) : r.contents.length = r.count.toNat := by simp [contents]

theorem valid_init (r : Tring) : (tringInit r).Valid where
  head_lt := by show 0 < 256; decide
  count_le := by show 0 ≤ 256; decide

theorem toNat_next_head {r : Tring} (hvalid : r.Valid) :
    ((r.head + 1) % TRING_CAP).toNat = (r.head.toNat + 1) % 256 := by
  have hlt := hvalid.head_lt
  rw [UInt32.toNat_mod, UInt32.toNat_add]
  show (r.head.toNat + 1) % 2 ^ 32 % 256 = _
  omega

theorem toNat_tail {r : Tring} (hvalid : r.Valid) :
    r.tail.toNat = (r.head.toNat + 256 - r.count.toNat) % 256 := by
  have hlt := hvalid.head_lt
  have hle := hvalid.count_le
  rw [tail, UInt32.toNat_mod, UInt32.toNat_add, UInt32.toNat_sub]
  show ((2 ^ 32 - r.count.toNat + r.head.toNat) % 2 ^ 32 + 256) % 2 ^ 32 % 256 = _
  omega

theorem getD_set_self {l : List TelemetryRecord} {i : Nat} (hi : i < l.length) (rec : TelemetryRecord) :
    (l.set i rec).getD i default = rec := by
  simp [List.getD_eq_getElem?_getD, hi]

theorem getD_set_ne (l : List TelemetryRecord) {i j : Nat} (hne : i ≠ j) (rec : TelemetryRecord) :
    (l.set i rec).getD j default = l.getD j default := by
  simp [List.getD_eq_getElem?_getD, hne]

theorem count_eq_cap_iff {r : Tring} : r.count = TRING_CAP ↔ r.count.toNat = 256 :=
  UInt32.toNat_inj.symm

/-- What a push leaves when the ring has room. -/
theorem push_room {r : Tring} (hvalid : r.Valid) (rec : TelemetryRecord) (hroom : r.count.toNat < 256) :
    (tringPush r rec).2.Valid ∧ (tringPush r rec).2.contents = r.contents ++ [rec] ∧
      (tringPush r rec).2.produced = r.produced + 1 ∧ (tringPush r rec).2.dropped = r.dropped := by
  have hlt := hvalid.head_lt
  have hcount : (r.count + 1).toNat = r.count.toNat + 1 := by
    rw [UInt32.toNat_add]
    show (r.count.toNat + 1) % 2 ^ 32 = _
    omega
  have hhead := toNat_next_head hvalid
  have hpush : (tringPush r rec).2 = { r.store r.head rec with
      head := (r.head + 1) % TRING_CAP, count := r.count + 1, produced := r.produced + 1 } := by
    rw [tringPush, if_neg (by rw [count_eq_cap_iff]; omega)]
    rfl
  rw [hpush]
  refine ⟨⟨?_, ?_⟩, ?_, rfl, rfl⟩
  · show ((r.head + 1) % TRING_CAP).toNat < 256
    omega
  · show (r.count + 1).toNat ≤ 256
    omega
  · simp only [contents, hcount, List.range_succ, List.map_append, List.map_singleton]
    congr 1
    · refine List.map_congr_left ?_
      intro i hi
      rw [List.mem_range] at hi
      simp only [nth, store, hhead, hcount]
      rw [getD_set_ne _ (by omega)]
      exact congrArg (fun k => r.buf.getD k default) (by omega)
    · have hslot : ((r.head.toNat + 1) % 256 + 256 - (r.count.toNat + 1) + r.count.toNat) % 256 =
          r.head.toNat := by omega
      simp only [nth, store, hhead, hcount, hslot]
      rw [getD_set_self (by rw [r.size]; exact hlt)]

/-- What a push leaves when the ring is full: the oldest record is gone. -/
theorem push_full {r : Tring} (hvalid : r.Valid) (rec : TelemetryRecord) (hfull : r.count.toNat = 256) :
    (tringPush r rec).2.Valid ∧ (tringPush r rec).2.contents = r.contents.drop 1 ++ [rec] ∧
      (tringPush r rec).2.produced = r.produced + 1 ∧ (tringPush r rec).2.dropped = r.dropped + 1 := by
  have hlt := hvalid.head_lt
  have hhead := toNat_next_head hvalid
  have hpush : (tringPush r rec).2 = { r.store r.head rec with
      head := (r.head + 1) % TRING_CAP, produced := r.produced + 1, dropped := r.dropped + 1 } := by
    rw [tringPush, if_pos (count_eq_cap_iff.mpr hfull)]
    rfl
  rw [hpush]
  refine ⟨⟨?_, hvalid.count_le⟩, ?_, rfl, rfl⟩
  · show ((r.head + 1) % TRING_CAP).toNat < 256
    omega
  · have hdrop : r.contents.drop 1 = (List.range 255).map fun i => r.nth (i + 1) := by
      rw [contents, hfull, List.range_succ_eq_map, List.map_cons, List.drop_one, List.tail_cons, List.map_map]
      rfl
    rw [hdrop]
    simp only [contents, store, hfull]
    rw [List.range_succ, List.map_append, List.map_singleton]
    congr 1
    · refine List.map_congr_left ?_
      intro i hi
      rw [List.mem_range] at hi
      simp only [nth, hhead, hfull]
      rw [getD_set_ne _ (by omega)]
      exact congrArg (fun k => r.buf.getD k default) (by omega)
    · have hslot : ((r.head.toNat + 1) % 256 + 256 - 256 + 255) % 256 = r.head.toNat := by omega
      simp only [nth, hhead, hfull, hslot]
      rw [getD_set_self (by rw [r.size]; exact hlt)]

/-- A pop takes the oldest record, or finds the ring empty. -/
theorem pop_eq {r : Tring} (hvalid : r.Valid) :
    (tringPop r).1 = r.contents.head? ∧ (tringPop r).2.Valid ∧
      (tringPop r).2.contents = r.contents.drop 1 ∧ (tringPop r).2.produced = r.produced ∧
      (tringPop r).2.dropped = r.dropped := by
  have hlt := hvalid.head_lt
  have hle := hvalid.count_le
  by_cases hzero : r.count = 0
  · have hnil : r.contents = [] := by rw [contents, hzero]; rfl
    rw [tringPop, if_pos hzero]
    exact ⟨by rw [hnil]; rfl, hvalid, by rw [hnil]; rfl, rfl, rfl⟩
  · obtain ⟨n, hn⟩ : ∃ n, r.count.toNat = n + 1 := by
      refine Nat.exists_eq_succ_of_ne_zero ?_
      intro h
      exact hzero (UInt32.toNat_inj.mp h)
    have hcount : (r.count - 1).toNat = n := by
      rw [UInt32.toNat_sub]
      show (2 ^ 32 - 1 + r.count.toNat) % 2 ^ 32 = n
      omega
    have hcons : r.contents = r.nth 0 :: (List.range n).map fun i => r.nth (i + 1) := by
      rw [contents, hn, List.range_succ_eq_map, List.map_cons, List.map_map]
      rfl
    rw [tringPop, if_neg hzero, hcons]
    refine ⟨?_, ⟨hlt, ?_⟩, ?_, rfl, rfl⟩
    · simp only [toNat_tail hvalid, nth, Nat.add_zero, List.head?_cons]
    · show (r.count - 1).toNat ≤ 256
      omega
    · simp only [contents, hcount, List.drop_one, List.tail_cons]
      refine List.map_congr_left ?_
      intro i hi
      rw [List.mem_range] at hi
      simp only [nth, hcount, hn]
      exact congrArg (fun k => r.buf.getD k default) (by omega)

/-- Popping up to `want` records takes that many from the front. -/
theorem popUpTo_eq {r : Tring} (hvalid : r.Valid) (want : Nat) :
    (tringPopUpTo want r).1 = r.contents.take want ∧ (tringPopUpTo want r).2.Valid ∧
      (tringPopUpTo want r).2.contents = r.contents.drop want ∧
      (tringPopUpTo want r).2.produced = r.produced ∧ (tringPopUpTo want r).2.dropped = r.dropped := by
  induction want generalizing r with
  | zero => exact ⟨rfl, hvalid, rfl, rfl, rfl⟩
  | succ want ih =>
      obtain ⟨hrec, hvalid', hcontents, hproduced, hdropped⟩ := pop_eq hvalid
      rw [tringPopUpTo]
      cases hpop : tringPop r with
      | mk popped r' =>
          rw [hpop] at hrec hvalid' hcontents hproduced hdropped
          simp only at hrec hvalid' hcontents hproduced hdropped
          cases hlist : r.contents with
          | nil =>
              rw [hlist] at hrec hcontents
              subst hrec
              exact ⟨rfl, hvalid', hcontents, hproduced, hdropped⟩
          | cons rec rest =>
              rw [hlist] at hrec hcontents
              subst hrec
              obtain ⟨hrecs, hvalid'', hcontents', hproduced', hdropped'⟩ := ih hvalid'
              rw [hcontents] at hrecs hcontents'
              exact ⟨congrArg (rec :: ·) hrecs, hvalid'', hcontents', hproduced'.trans hproduced,
                hdropped'.trans hdropped⟩

end Tring

end PulseLink
