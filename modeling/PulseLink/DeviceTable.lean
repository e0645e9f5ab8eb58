import PulseLink.BaseBytes

/-! The device registry of `server/device_table.c`: 64 chains of devices hashed by id. A device is an
index into a heap that only grows, since devices are never removed; the chains hold such indices. Here
are the sections that run under the lock and the per-device atomics; the calls made of them follow in
`Server`. -/

namespace PulseLink

/-- `dev_state_t`. -/
inductive DevState where
  | online
  | offline
  deriving DecidableEq, Repr

/-- `device_t` without its chain link. -/
structure Device where
  id : UInt32
  sessionId : UInt32
  state : DevState
  lastSeq : UInt32
  lastSeen : Int
  packetsOk : UInt64
  packetsBad : UInt64
  lastTemp : Int32
  lastHumid : Int32
  deriving DecidableEq, Repr

def TABLE_BUCKETS : Nat := 64

/-- `dt_hash`. -/
def dtHash (id : UInt32) : Fin TABLE_BUCKETS :=
  ⟨((id * 2654435761) % 64).toNat, by
    rw [UInt32.toNat_mod]
    exact Nat.mod_lt _ (by decide)⟩

/-- `device_table_t`, with the devices allocated so far. -/
structure DeviceTable where
  heap : List Device
  buckets : Fin TABLE_BUCKETS → List Nat
  deviceCount : UInt32

/-- `dt_init`. -/
def dtInit : DeviceTable where
  heap := []
  buckets _ := []
  deviceCount := 0

namespace DeviceTable

/-- The id of the device at `p`. -/
def idAt (t : DeviceTable) (p : Nat) : Option UInt32 := (t.heap[p]?).map Device.id

/-- `find_locked`. -/
def findLocked (t : DeviceTable) (h : Fin TABLE_BUCKETS) (id : UInt32) : Option Nat :=
  (t.buckets h).find? fun p => t.idAt p = some id

/-- Looks an id up in its own chain, as every caller of `find_locked` does. -/
def lookup (t : DeviceTable) (id : UInt32) : Option Nat := t.findLocked (dtHash id) id

/-- A device as `dt_get_or_create` initialises it. -/
def newDevice (id sessionId : UInt32) (now : Int) : Device where
  id := id
  sessionId := sessionId
  state := .online
  lastSeq := 0
  lastSeen := now
  packetsOk := 0
  packetsBad := 0
  lastTemp := 0
  lastHumid := 0

/-- Puts a new device at the front of its chain and counts it. -/
def insert (t : DeviceTable) (id sessionId : UInt32) (now : Int) : DeviceTable where
  heap := t.heap ++ [newDevice id sessionId now]
  buckets := Function.update t.buckets (dtHash id) (t.heap.length :: t.buckets (dtHash id))
  deviceCount := t.deviceCount + 1

end DeviceTable

/-- The outcome of the write-locked section of `dt_get_or_create`. -/
inductive Insertion where
  | found (p : Nat)
  | inserted (p : Nat)
  | noMemory
  deriving DecidableEq, Repr

/-- The device the call returns. -/
def Insertion.device : Insertion → Option Nat
  | .found p => some p
  | .inserted p => some p
  | .noMemory => none

/-- The write-locked section of `dt_get_or_create`: re-check, allocate, insert. -/
def dtInsertLocked (callocOk : Bool) (id sessionId : UInt32) (now : Int) (t : DeviceTable) :
    Insertion × DeviceTable :=
  match t.lookup id with
  | some p => (.found p, t)
  | none =>
      if callocOk then (.inserted t.heap.length, t.insert id sessionId now)
      else (.noMemory, t)

/-- The atomic operations on the fields of a device. -/
inductive DevAtomic where
  | storeSeq (v : UInt32)
  | storeTemp (v : Int32)
  | storeHumid (v : Int32)
  | storeSeen (v : Int)
  | storeState (v : DevState)
  | addOk
  | addBad
  deriving DecidableEq, Repr

def DevAtomic.apply : DevAtomic → Device → Device
  | .storeSeq v, d => { d with lastSeq := v }
  | .storeTemp v, d => { d with lastTemp := v }
  | .storeHumid v, d => { d with lastHumid := v }
  | .storeSeen v, d => { d with lastSeen := v }
  | .storeState v, d => { d with state := v }
  | .addOk, d => { d with packetsOk := d.packetsOk + 1 }
  | .addBad, d => { d with packetsBad := d.packetsBad + 1 }

/-- One atomic operation on the device at `p`. -/
def DeviceTable.atomic (t : DeviceTable) (p : Nat) (a : DevAtomic) : DeviceTable :=
  { t with heap := t.heap.modify p a.apply }

@[simp] theorem DevAtomic.apply_id (a : DevAtomic) (d : Device) : (a.apply d).id = d.id := by
  cases a <;> rfl

@[simp] theorem DevAtomic.apply_sessionId (a : DevAtomic) (d : Device) :
    (a.apply d).sessionId = d.sessionId := by
  cases a <;> rfl

namespace DeviceTable

variable {t : DeviceTable}

theorem lookup_some {id : UInt32} {p : Nat} (hfind : t.lookup id = some p) :
    p ∈ t.buckets (dtHash id) ∧ t.idAt p = some id :=
  ⟨List.mem_of_find?_eq_some hfind, by simpa using List.find?_some hfind⟩

theorem lookup_none {id : UInt32} (hfind : t.lookup id = none) :
    ∀ p ∈ t.buckets (dtHash id), t.idAt p ≠ some id := by
  intro p hp
  simpa using List.find?_eq_none.mp hfind p hp

theorem lookup_congr {t' : DeviceTable} (hbuckets : t'.buckets = t.buckets) (hid : t'.idAt = t.idAt)
    (id : UInt32) : t'.lookup id = t.lookup id := by
  rw [lookup, lookup, findLocked, findLocked, hbuckets, hid]

/-! ### Atomic operations -/

@[simp] theorem atomic_buckets (p : Nat) (a : DevAtomic) : (t.atomic p a).buckets = t.buckets := rfl

@[simp] theorem atomic_deviceCount (p : Nat) (a : DevAtomic) :
    (t.atomic p a).deviceCount = t.deviceCount := rfl

theorem atomic_heap (p q : Nat) (a : DevAtomic) :
    (t.atomic p a).heap[q]? = if p = q then (t.heap[q]?).map a.apply else t.heap[q]? := by
  rw [atomic, List.getElem?_modify]
  split_ifs
  · rfl
  · exact id_map _

@[simp] theorem atomic_idAt (p : Nat) (a : DevAtomic) : (t.atomic p a).idAt = t.idAt := by
  funext q
  rw [idAt, idAt, atomic_heap]
  split_ifs
  · rw [Option.map_map]
    congr 1
    funext d
    exact a.apply_id d
  · rfl

@[simp] theorem atomic_lookup (p : Nat) (a : DevAtomic) (id : UInt32) :
    (t.atomic p a).lookup id = t.lookup id :=
  lookup_congr (atomic_buckets p a) (atomic_idAt p a) id

/-! ### Insertion -/

theorem insert_idAt (id sessionId : UInt32) (now : Int) :
    (t.insert id sessionId now).idAt t.heap.length = some id := by
  simp [idAt, insert, newDevice]

theorem insert_heap {id sessionId : UInt32} {now : Int} {p : Nat} (hp : p < t.heap.length) :
    (t.insert id sessionId now).heap[p]? = t.heap[p]? :=
  List.getElem?_append_left hp

@[simp] theorem insert_lookup (id sessionId : UInt32) (now : Int) :
    (t.insert id sessionId now).lookup id = some t.heap.length := by
  have hid := insert_idAt (t := t) id sessionId now
  rw [lookup, findLocked]
  simp [insert, List.find?_cons] at hid ⊢
  simp [hid]

end DeviceTable

end PulseLink
