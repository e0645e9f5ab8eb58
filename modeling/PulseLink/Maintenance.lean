import PulseLink.Session
import PulseLink.TableTraffic
import PulseLink.BaseMonitor

/-! The UDP listener of `server/udp_listener.c` and the reaper of `server/reaper.c`, and what their calls do to
the device table when each runs without interruption. Sockets, ticks and log lines are left out: a datagram is
what `recvfrom` returned, and a sweep may come at any time. -/

namespace PulseLink

open Bytes

def HEARTBEAT_TIMEOUT_S : Int := 15

/-- The checks of `udp_listener_thread` on the bytes of a datagram, of which the buffer holds at most
`PL_HDR_SIZE + PL_MAX_PAYLOAD`: the device id of a heartbeat, or nothing for a datagram it drops. -/
def heartbeatId (host : Endian) (datagram : List UInt8) : Option UInt32 :=
  let buf := datagram.take (PL_HDR_SIZE + PL_MAX_PAYLOAD.toNat)
  let h := plParseHeader host buf
  if buf.length < PL_HDR_SIZE then none
  else if h.magic ≠ PL_MAGIC ∨ h.version ≠ PL_VERSION then none
  else if buf.length < PL_HDR_SIZE + h.payloadLen.toNat then none
  else if plChecksum ((buf.drop PL_HDR_SIZE).take h.payloadLen.toNat) ≠ h.checksum then none
  else if h.type ≠ PktType.heartbeat.code then none
  else some h.deviceId

/-- One turn of the loop of `udp_listener_thread`; `got` is what `recvfrom` returned, if it did not fail. -/
def udpTurn (host : Endian) (got : Option (List UInt8)) : ServerProc Unit :=
  match got.bind (heartbeatId host) with
  | none => return ()
  | some id => do
      let now ← ask .time
      dtTouch id now

/-- A sweep of `reaper_thread`. -/
def reaperSweep : TrafficProc Unit := do
  let now ← traffic (.server .time)
  dtSweepOffline now HEARTBEAT_TIMEOUT_S

/-! ### A clock that stands still -/

/-- The shared state while the clock shows `now`. -/
def ServerCtx.at (ctx : ServerCtx) (now : Int) : ServerCtx :=
  { ctx with choices := { ctx.choices with times := [now] } }

/-- The operations while the clock shows `now`. -/
def serverAt (now : Int) : Handler ServerSig (Conn × ServerCtx) :=
  fun o w => serverHandler o (w.1, w.2.at now)

def trafficAt (now : Int) : Handler TrafficSig (Conn × ServerCtx) :=
  fun o w => trafficHandler o (w.1, w.2.at now)

/-- What an operation and its answer say about the table before it, and the table after it. -/
def tableMonitor (now : Int) : Monitor ServerSig DeviceTable
  | t, ⟨.find id, hit⟩ => if hit = t.lookup id then some t else none
  | t, ⟨.insert id _, .found p⟩ => if t.lookup id = some p then some t else none
  | t, ⟨.insert id sid, .inserted p⟩ =>
      if t.lookup id = none ∧ p = t.heap.length then some (t.insert id sid now) else none
  | t, ⟨.insert id _, .noMemory⟩ => if t.lookup id = none then some t else none
  | t, ⟨.device p a, _⟩ => some (t.atomic p a)
  | t, ⟨.time, τ⟩ => if τ = now then some t else none
  | t, _ => some t

theorem tableMonitor_serverAt (now : Int) (o : ServerOp) (w : Conn × ServerCtx) :
    tableMonitor now w.2.devices ⟨o, (serverAt now o w).1⟩ = some (serverAt now o w).2.2.devices := by
  obtain ⟨conn, ctx⟩ := w
  cases o with
  | find id => exact if_pos rfl
  | time => exact if_pos rfl
  | device p a => rfl
  | insert id sid =>
      simp only [serverAt, serverHandler, dtInsertLocked]
      cases hlookup : (ctx.at now).devices.lookup id with
      | some p => exact if_pos hlookup
      | none =>
          simp only
          split_ifs
          · exact if_pos ⟨hlookup, rfl⟩
          · exact if_pos hlookup
  | writeFile path bytes =>
      simp only [tableMonitor, serverAt, serverHandler]
      split <;> rfl
  | _ => rfl

section Accepts

variable {now : Int} {t t' : DeviceTable} {rest : List (Event ServerSig)}

theorem accepts_find {id : UInt32} {hit : Option Nat}
    (haccepts : (tableMonitor now).Accepts t (⟨.find id, hit⟩ :: rest) t') :
    hit = t.lookup id ∧ (tableMonitor now).Accepts t rest t' := by
  cases haccepts with
  | cons hmove hrest =>
      simp only [tableMonitor] at hmove
      split_ifs at hmove with hhit
      cases hmove
      exact ⟨hhit, hrest⟩

theorem accepts_time {τ : Int} (haccepts : (tableMonitor now).Accepts t (⟨.time, τ⟩ :: rest) t') :
    τ = now ∧ (tableMonitor now).Accepts t rest t' := by
  cases haccepts with
  | cons hmove hrest =>
      simp only [tableMonitor] at hmove
      split_ifs at hmove with hτ
      cases hmove
      exact ⟨hτ, hrest⟩

theorem accepts_insert {id sid : UInt32} {r : Insertion}
    (haccepts : (tableMonitor now).Accepts t (⟨.insert id sid, r⟩ :: rest) t') :
    ∃ t₁, r.device = t₁.lookup id ∧ (t₁ = t ∨ t.lookup id = none ∧ t₁ = t.insert id sid now) ∧
      (tableMonitor now).Accepts t₁ rest t' := by
  cases haccepts with
  | cons hmove hrest =>
      cases r with
      | found p =>
          simp only [tableMonitor] at hmove
          split_ifs at hmove with hp
          cases hmove
          exact ⟨t, hp.symm, Or.inl rfl, hrest⟩
      | inserted p =>
          simp only [tableMonitor] at hmove
          split_ifs at hmove with hif
          cases hmove
          obtain ⟨hnone, rfl⟩ := hif
          exact ⟨_, (DeviceTable.insert_lookup id sid now).symm, Or.inr ⟨hnone, rfl⟩, hrest⟩
      | noMemory =>
          simp only [tableMonitor] at hmove
          split_ifs at hmove with hnone
          cases hmove
          exact ⟨t, hnone.symm, Or.inl rfl, hrest⟩

theorem accepts_device {p : Nat} {a : DevAtomic} {ans : Unit}
    (haccepts : (tableMonitor now).Accepts t (⟨.device p a, ans⟩ :: rest) t') :
    (tableMonitor now).Accepts (t.atomic p a) rest t' := by
  cases haccepts with
  | cons hmove hrest =>
      cases hmove
      exact hrest

/-- The operations that have nothing to do with the table. -/
def OffTable : ServerOp → Prop
  | .find _ => False
  | .insert _ _ => False
  | .device _ _ => False
  | .time => False
  | _ => True

theorem accepts_skip {e : Event ServerSig} (haccepts : (tableMonitor now).Accepts t (e :: rest) t')
    (hoff : OffTable e.op) : (tableMonitor now).Accepts t rest t' := by
  obtain ⟨o, ans⟩ := e
  cases haccepts with
  | cons hmove hrest =>
      have hsame : tableMonitor now t ⟨o, ans⟩ = some t := by
        cases o <;> first | exact hoff.elim | rfl
      cases hsame.symm.trans hmove
      exact hrest

theorem accepts_off_all {off : List (Event ServerSig)} (haccepts : (tableMonitor now).Accepts t off t')
    (hoff : ∀ e ∈ off, OffTable e.op) : t' = t := by
  induction off with
  | nil =>
      cases haccepts
      rfl
  | cons e off ih =>
      refine ih (accepts_skip haccepts (hoff e List.mem_cons_self)) fun e' he' => ?_
      exact hoff e' (List.mem_cons_of_mem _ he')

end Accepts

/-- Every run while the clock shows `now` is a run on the table. -/
theorem accepts_serverAt {α : Type} (now : Int) (p : ServerProc α) (w : Conn × ServerCtx) :
    (tableMonitor now).Accepts w.2.devices (p.exec (serverAt now) w).trace
      (p.exec (serverAt now) w).world.2.devices :=
  Proc.accepts_exec (v := fun w : Conn × ServerCtx => w.2.devices) (tableMonitor_serverAt now) p w

/-! ### What the table knows about presence -/

namespace DeviceTable

variable {t : DeviceTable}

/-- When a device was last seen, and its state. -/
def seen (t : DeviceTable) (id : UInt32) : Option (Int × DevState) :=
  (t.get id).map fun d => (d.lastSeen, d.state)

theorem seen_eq_none_iff {id : UInt32} : t.seen id = none ↔ t.lookup id = none := by
  rw [seen, Option.map_eq_none_iff]
  constructor
  · intro hget
    cases hlookup : t.lookup id with
    | none => rfl
    | some p =>
        obtain ⟨d, hd⟩ := get_isSome hlookup
        rw [hget] at hd
        cases hd
  · intro hlookup
    rw [get, hlookup]
    rfl

end DeviceTable

/-- What an atomic operation does to that. -/
def DevAtomic.onSeen : DevAtomic → Int × DevState → Int × DevState
  | .storeSeen v, (_, state) => (v, state)
  | .storeState state, (v, _) => (v, state)
  | _, x => x

namespace DeviceTable

variable {t : DeviceTable}

theorem seen_atomic (p : Nat) (a : DevAtomic) (id : UInt32) :
    (t.atomic p a).seen id = if t.lookup id = some p then (t.seen id).map a.onSeen else t.seen id := by
  have happly : ∀ d : Device, ((a.apply d).lastSeen, (a.apply d).state) = a.onSeen (d.lastSeen, d.state) := by
    intro d
    cases a <;> rfl
  by_cases hp : t.lookup id = some p
  · rw [if_pos hp, seen, seen, get_atomic hp, Option.map_map, Option.map_map]
    congr 1
    funext d
    exact happly d
  · rw [if_neg hp, seen, seen, get, get, atomic_lookup]
    cases hlookup : t.lookup id with
    | none => rfl
    | some q =>
        have hne : p ≠ q := by
          rintro rfl
          exact hp hlookup
        show Option.map _ ((t.atomic p a).heap[q]?) = Option.map _ t.heap[q]?
        rw [atomic_heap, if_neg hne]

theorem WellFormed.seen_insert (hwf : t.WellFormed) (id sessionId : UInt32) (now : Int) (id' : UInt32) :
    (t.insert id sessionId now).seen id' = if id = id' then some (now, .online) else t.seen id' := by
  by_cases hid : id = id'
  · subst hid
    rw [if_pos rfl, seen, get_insert]
    rfl
  · rw [if_neg hid, seen, seen, get, get, hwf.insert_lookup_ne hid]
    cases hlookup : t.lookup id' with
    | none => rfl
    | some q =>
        have hlt := hwf.lt_length (lookup_some hlookup).1
        exact congrArg (Option.map fun d : Device => (d.lastSeen, d.state)) (insert_heap hlt)

/-- Storing the time and ONLINE makes the device seen now. -/
theorem seen_refresh {id : UInt32} {p : Nat} (hp : t.lookup id = some p) (now : Int) (id' : UInt32) :
    ((t.atomic p (.storeSeen now)).atomic p (.storeState .online)).seen id' =
      if id = id' then some (now, .online) else t.seen id' := by
  rw [seen_atomic, atomic_lookup, seen_atomic]
  by_cases hid : id = id'
  · subst hid
    have hsome : t.seen id ≠ none := by
      rw [Ne, seen_eq_none_iff, hp]
      exact nofun
    obtain ⟨x, hx⟩ := Option.ne_none_iff_exists'.mp hsome
    rw [if_pos hp, if_pos hp, if_pos rfl, hx]
    rfl
  · have hne : t.lookup id' ≠ some p := by
      intro hp'
      have heq := (lookup_some hp).2.symm.trans (lookup_some hp').2
      exact hid (Option.some.inj heq)
    rw [if_neg hne, if_neg hne, if_neg hid]

end DeviceTable

/-! ### Calls that run alone -/

/-- `dt_get_or_create` returns what is in the table afterwards; it has inserted the id or left the table. -/
theorem dtGetOrCreate_table {now : Int} {id sid : UInt32} {call : List (Event ServerSig)} {dev : Option Nat}
    {t t' : DeviceTable} (hpath : (dtGetOrCreate id sid).Path call dev)
    (haccepts : (tableMonitor now).Accepts t call t') :
    dev = t'.lookup id ∧ (t' = t ∨ t.lookup id = none ∧ t' = t.insert id sid now) := by
  obtain ⟨hit, call₁, rfl, hrest⟩ := path_ask_iff.mp hpath
  obtain ⟨hhit, hfound⟩ := accepts_find haccepts
  cases hit with
  | some p =>
      obtain ⟨_, call₂, rfl, hret⟩ := path_ask_iff.mp hrest
      obtain ⟨rfl, rfl⟩ := Proc.path_ret_iff.mp hret
      obtain rfl := accepts_off_all hfound (List.forall_mem_singleton.mpr trivial)
      exact ⟨hhit, Or.inl rfl⟩
  | none =>
      obtain ⟨r, call₂, rfl, hreturned⟩ := path_ask_iff.mp hrest
      obtain ⟨_, call₃, rfl, hret⟩ := path_ask_iff.mp hreturned
      obtain ⟨rfl, rfl⟩ := Proc.path_ret_iff.mp hret
      obtain ⟨t₁, hdev, htable, hinserted⟩ := accepts_insert hfound
      obtain rfl := accepts_off_all hinserted (List.forall_mem_singleton.mpr trivial)
      exact ⟨hdev, htable⟩

/-- What a call or a packet did to the presence of every device: the table stayed well formed and kept its
ids, and `refreshed` became seen now. -/
structure Refreshes (now : Int) (refreshed : UInt32 → Prop) [DecidablePred refreshed] (t t' : DeviceTable) :
    Prop where
  wellFormed : t'.WellFormed
  lookup : ∀ id p, t.lookup id = some p → t'.lookup id = some p
  seen : ∀ id, t'.seen id = if refreshed id then some (now, .online) else t.seen id

/-- The id is now in the table and was not before. -/
def NewIn (t t' : DeviceTable) (id : UInt32) : Prop := t.lookup id = none ∧ t'.lookup id ≠ none

instance (t t' : DeviceTable) (id : UInt32) : Decidable (NewIn t t' id) :=
  inferInstanceAs (Decidable (t.lookup id = none ∧ t'.lookup id ≠ none))

/-- A call of `dt_get_or_create` refreshes a device only by creating it. -/
theorem refreshes_getOrCreate {t t' : DeviceTable} (hwf : t.WellFormed) {now : Int} {id sid : UInt32}
    (htable : t' = t ∨ t.lookup id = none ∧ t' = t.insert id sid now) :
    Refreshes now (fun id' => id = id' ∧ NewIn t t' id') t t' := by
  rcases htable with rfl | ⟨hnone, rfl⟩
  · refine ⟨hwf, fun _ _ hp => hp, fun id' => (if_neg ?_).symm⟩
    rintro ⟨-, hnone, hsome⟩
    exact hsome hnone
  · refine ⟨hwf.insert hnone sid now, fun id' p hp => hwf.insert_lookup_old hnone hp, fun id' => ?_⟩
    have hiff : (id = id' ∧ NewIn t (t.insert id sid now) id') ↔ id = id' := by
      refine ⟨And.left, ?_⟩
      rintro rfl
      refine ⟨rfl, hnone, ?_⟩
      rw [DeviceTable.insert_lookup]
      exact nofun
    rw [hwf.seen_insert]
    simp only [hiff]

section Refreshes

variable {now : Int} {P Q : UInt32 → Prop} [DecidablePred P] [DecidablePred Q] {t t₁ t₂ : DeviceTable}

theorem Refreshes.congr (h : Refreshes now P t t₁) (hiff : ∀ id, Q id ↔ P id) : Refreshes now Q t t₁ := by
  refine ⟨h.wellFormed, h.lookup, fun id => ?_⟩
  rw [h.seen]
  simp only [hiff]

theorem Refreshes.trans (h₁ : Refreshes now P t t₁) (h₂ : Refreshes now Q t₁ t₂) :
    Refreshes now (fun id => P id ∨ Q id) t t₂ := by
  refine ⟨h₂.wellFormed, fun id p hp => h₂.lookup id p (h₁.lookup id p hp), fun id => ?_⟩
  rw [h₂.seen, h₁.seen]
  by_cases hQ : Q id
  · rw [if_pos hQ, if_pos (Or.inr hQ)]
  · simp only [hQ, or_false, if_false]

/-- The two stores of `dt_touch`. -/
theorem refreshes_stores (hwf : t.WellFormed) {id : UInt32} {p : Nat} (hp : t.lookup id = some p) (now : Int) :
    Refreshes now (fun id' => id = id') t ((t.atomic p (.storeSeen now)).atomic p (.storeState .online)) := by
  refine ⟨(hwf.atomic _ _).atomic _ _, fun id' q hq => ?_, DeviceTable.seen_refresh hp now⟩
  rw [DeviceTable.atomic_lookup, DeviceTable.atomic_lookup]
  exact hq

end Refreshes

/-- A datagram refreshes the device of a heartbeat, if there is memory for it. -/
theorem udpTurn_table {host : Endian} {got : Option (List UInt8)} {now : Int} {turn : List (Event ServerSig)}
    {t t' : DeviceTable} (hwf : t.WellFormed) (hpath : (udpTurn host got).Path turn ())
    (haccepts : (tableMonitor now).Accepts t turn t') :
    Refreshes now (fun id => got.bind (heartbeatId host) = some id ∧ t'.lookup id ≠ none) t t' := by
  rw [udpTurn] at hpath
  cases hid : got.bind (heartbeatId host) with
  | none =>
      rw [hid] at hpath
      obtain ⟨rfl, -⟩ := Proc.path_ret_iff.mp hpath
      cases haccepts
      refine ⟨hwf, fun _ _ hp => hp, fun id => (if_neg ?_).symm⟩
      rintro ⟨hnone, -⟩
      cases hnone
  | some id =>
      rw [hid] at hpath
      obtain ⟨τ, t₁, rfl, htouch⟩ := path_ask_iff.mp hpath
      obtain ⟨rfl, htime⟩ := accepts_time haccepts
      obtain ⟨call, dev, stores, rfl, hcall, hstores⟩ := Proc.path_bind_iff.mp htouch
      obtain ⟨mid, hfirst, hsecond⟩ := htime.split
      obtain ⟨hdev, htable⟩ := dtGetOrCreate_table hcall hfirst
      have hcreate := refreshes_getOrCreate hwf htable
      cases dev with
      | none =>
          obtain ⟨rfl, -⟩ := Proc.path_ret_iff.mp hstores
          cases hsecond
          refine hcreate.congr fun id' => ⟨?_, ?_⟩
          · rintro ⟨heq, hsome⟩
            cases heq
            exact absurd hdev.symm hsome
          · rintro ⟨rfl, -, hsome⟩
            exact absurd hdev.symm hsome
      | some p =>
          obtain ⟨_, stores₁, rfl, hstate⟩ := path_ask_iff.mp hstores
          obtain ⟨_, stores₂, rfl, hend⟩ := Proc.path_op_iff.mp hstate
          obtain ⟨rfl, -⟩ := Proc.path_ret_iff.mp hend
          have hlast := accepts_device (accepts_device hsecond)
          cases hlast
          have htouched := refreshes_stores hcreate.wellFormed hdev.symm τ
          refine (hcreate.trans htouched).congr fun id' => ⟨?_, ?_⟩
          · rintro ⟨heq, -⟩
            exact Or.inr (Option.some.inj heq)
          · intro hor
            obtain rfl : id = id' := hor.elim And.left fun heq => heq
            refine ⟨rfl, ?_⟩
            rw [htouched.lookup id p hdev.symm]
            exact nofun

/-! ### A sweep that runs alone -/

/-- What a sweep makes of a device. -/
def sweepSeen (now timeout : Int) : Int × DevState → Int × DevState
  | (v, state) => if now - v > timeout then (v, .offline) else (v, state)

theorem sweepSeen_sweepSeen (now timeout : Int) (x : Int × DevState) :
    sweepSeen now timeout (sweepSeen now timeout x) = sweepSeen now timeout x := by
  obtain ⟨v, state⟩ := x
  by_cases hold : now - v > timeout
  · simp only [sweepSeen, if_pos hold]
  · simp only [sweepSeen, if_neg hold]

/-- The table after the sweep has passed the devices `ps`. -/
structure Swept (now timeout : Int) (ps : List Nat) (t t' : DeviceTable) : Prop where
  wellFormed : t'.WellFormed
  lookup : ∀ id, t'.lookup id = t.lookup id
  seen : ∀ id, t'.seen id =
    if (∃ p ∈ ps, t.lookup id = some p) then (t.seen id).map (sweepSeen now timeout) else t.seen id

theorem Swept.append {now timeout : Int} {ps qs : List Nat} {t t₁ t₂ : DeviceTable}
    (hfirst : Swept now timeout ps t t₁) (hsecond : Swept now timeout qs t₁ t₂) :
    Swept now timeout (ps ++ qs) t t₂ := by
  refine ⟨hsecond.wellFormed, fun id => (hsecond.lookup id).trans (hfirst.lookup id), fun id => ?_⟩
  have hmem : (∃ p ∈ ps ++ qs, t.lookup id = some p) ↔
      (∃ p ∈ ps, t.lookup id = some p) ∨ ∃ p ∈ qs, t.lookup id = some p := by
    simp only [List.mem_append, or_and_right, exists_or]
  rw [hsecond.seen, hfirst.seen, hfirst.lookup]
  simp only [hmem]
  by_cases hps : ∃ p ∈ ps, t.lookup id = some p
  · rw [if_pos hps, if_pos (Or.inl hps), Option.map_map]
    split_ifs
    · -- passed twice: the second time changes nothing
      congr 1
      funext x
      exact sweepSeen_sweepSeen now timeout x
    · rfl
  · rw [if_neg hps]
    simp only [hps, false_or]

/-- The table after the sweep has passed one device. -/
def DeviceTable.sweepOne (t : DeviceTable) (now timeout : Int) (p : Nat) : DeviceTable :=
  if now - ((t.heap[p]?).map Device.lastSeen).getD 0 > timeout then t.atomic p (.storeState .offline) else t

theorem swept_sweepOne {t : DeviceTable} (hwf : t.WellFormed) (now timeout : Int) (p : Nat) :
    Swept now timeout [p] t (t.sweepOne now timeout p) := by
  have hseen : ∀ id, t.lookup id = some p → ∃ d : Device, t.heap[p]? = some d ∧
      t.seen id = some (d.lastSeen, d.state) := by
    intro id hp
    obtain ⟨d, hd⟩ := DeviceTable.get_isSome hp
    refine ⟨d, ?_, by rw [DeviceTable.seen, hd]; rfl⟩
    rw [DeviceTable.get, hp] at hd
    exact hd
  have hmem : ∀ id, (∃ q ∈ [p], t.lookup id = some q) ↔ t.lookup id = some p := by simp
  rw [DeviceTable.sweepOne]
  by_cases hold : now - ((t.heap[p]?).map Device.lastSeen).getD 0 > timeout
  · rw [if_pos hold]
    refine ⟨hwf.atomic _ _, fun id => DeviceTable.atomic_lookup _ _ _, fun id => ?_⟩
    rw [DeviceTable.seen_atomic]
    simp only [hmem]
    by_cases hp : t.lookup id = some p
    · obtain ⟨d, hd, hx⟩ := hseen id hp
      rw [hd] at hold
      have hold' : now - d.lastSeen > timeout := hold
      rw [if_pos hp, if_pos hp, hx, Option.map_some, Option.map_some, sweepSeen, if_pos hold']
      rfl
    · rw [if_neg hp, if_neg hp]
  · rw [if_neg hold]
    refine ⟨hwf, fun _ => rfl, fun id => ?_⟩
    simp only [hmem]
    by_cases hp : t.lookup id = some p
    · obtain ⟨d, hd, hx⟩ := hseen id hp
      rw [hd] at hold
      have hold' : ¬ now - d.lastSeen > timeout := hold
      rw [if_pos hp, hx, Option.map_some, sweepSeen, if_neg hold']
    · rw [if_neg hp]

theorem sweepDevices_table {now timeout : Int} (τ : Int) (ps : List Nat) {w : Conn × ServerCtx}
    (hwf : w.2.devices.WellFormed) :
    Swept now timeout ps w.2.devices
      ((sweepDevices now timeout ps).exec (trafficAt τ) w).world.2.devices := by
  induction ps generalizing w with
  | nil => exact ⟨hwf, fun _ => rfl, fun _ => (if_neg (by simp)).symm⟩
  | cons p ps ih =>
      have hone := swept_sweepOne hwf now timeout p
      have hturn : ((sweepDevices now timeout (p :: ps)).exec (trafficAt τ) w).world =
          ((if now - ((w.2.devices.heap[p]?).map Device.lastSeen).getD 0 > timeout then do
              traffic (.server (.device p (.storeState .offline)))
              sweepDevices now timeout ps
            else sweepDevices now timeout ps : TrafficProc Unit).exec (trafficAt τ) (w.1, w.2.at τ)).world := rfl
      rw [hturn]
      show Swept now timeout ([p] ++ ps) _ _
      refine hone.append ?_
      have hwf' := hone.wellFormed
      rw [DeviceTable.sweepOne] at hwf' ⊢
      split_ifs at hwf' ⊢
      · exact ih (w := (trafficAt τ (.server (.device p (.storeState .offline))) (w.1, w.2.at τ)).2) hwf'
      · exact ih (w := (w.1, w.2.at τ)) hwf'

/-- **A sweep that runs alone** passes every device of the table. -/
theorem reaperSweep_table (now : Int) {w : Conn × ServerCtx} (hwf : w.2.devices.WellFormed) :
    let t' := (reaperSweep.exec (trafficAt now) w).world.2.devices
    t'.WellFormed ∧ (∀ id, t'.lookup id = w.2.devices.lookup id) ∧
      ∀ id, t'.seen id = (w.2.devices.seen id).map (sweepSeen now HEARTBEAT_TIMEOUT_S) := by
  intro t'
  have hswept : Swept now HEARTBEAT_TIMEOUT_S w.2.devices.chained w.2.devices t' :=
    sweepDevices_table now w.2.devices.chained
      (w := (w.1, (w.2.at now).at now)) hwf
  refine ⟨hswept.wellFormed, hswept.lookup, fun id => ?_⟩
  rw [hswept.seen]
  cases hlookup : w.2.devices.lookup id with
  | none => rw [if_neg (by simp), DeviceTable.seen_eq_none_iff.mpr hlookup]; rfl
  | some p =>
      refine if_pos ⟨p, ?_, rfl⟩
      exact DeviceTable.mem_chained.mpr ⟨_, (DeviceTable.lookup_some hlookup).1⟩

end PulseLink
