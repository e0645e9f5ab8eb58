import PulseLink.Server

/-! The device table under any interleaving. Only two kinds of operation change it: the insertion of an id
it does not hold, and an atomic on a device; both keep it well formed and extend it. So whatever any thread
was once told about an id stays true. -/

namespace PulseLink

/-! ### Well-formed tables -/

namespace DeviceTable

/-- The devices in the chains, bucket by bucket. -/
def chained (t : DeviceTable) : List Nat := (List.finRange TABLE_BUCKETS).flatMap t.buckets

/-- Every chained device is in the bucket of its id, no two have the same id, and they are counted. -/
structure WellFormed (t : DeviceTable) : Prop where
  bucket : ∀ b, ∀ p ∈ t.buckets b, ∃ d : Device, t.heap[p]? = some d ∧ dtHash d.id = b
  unique : (t.chained.map t.idAt).Nodup
  count : t.deviceCount.toNat = t.chained.length % 2 ^ 32

/-- `t'` still holds every device of `t`, with its id and session, at the same place of its chain. -/
structure Extends (t t' : DeviceTable) : Prop where
  device : ∀ (p : Nat) (d : Device), t.heap[p]? = some d →
    ∃ d' : Device, t'.heap[p]? = some d' ∧ d'.id = d.id ∧ d'.sessionId = d.sessionId
  chain : ∀ b, t.buckets b <:+ t'.buckets b

theorem extends_refl (t : DeviceTable) : t.Extends t :=
  ⟨fun _ d hd => ⟨d, hd, rfl, rfl⟩, fun _ => List.suffix_refl _⟩

theorem Extends.trans {t t' t'' : DeviceTable} (h : t.Extends t') (h' : t'.Extends t'') :
    t.Extends t'' := by
  refine ⟨?_, fun b => (h.chain b).trans (h'.chain b)⟩
  intro p d hd
  obtain ⟨d', hd', hid', hsid'⟩ := h.device p d hd
  obtain ⟨d'', hd'', hid'', hsid''⟩ := h'.device p d' hd'
  exact ⟨d'', hd'', hid''.trans hid', hsid''.trans hsid'⟩

theorem chained_init : dtInit.chained = [] :=
  List.flatMap_eq_nil_iff.mpr fun _ _ => rfl

theorem wellFormed_init : dtInit.WellFormed where
  bucket := by simp [dtInit]
  unique := by rw [chained_init]; exact List.nodup_nil
  count := by rw [chained_init]; rfl

variable {t : DeviceTable}

theorem mem_chained {p : Nat} : p ∈ t.chained ↔ ∃ b, p ∈ t.buckets b := by
  simp [chained]

/-! ### Atomics -/

theorem atomic_extends (p : Nat) (a : DevAtomic) : t.Extends (t.atomic p a) := by
  refine ⟨?_, fun b => List.suffix_refl _⟩
  intro q d hd
  rw [atomic_heap, hd]
  split_ifs
  · exact ⟨a.apply d, rfl, a.apply_id d, a.apply_sessionId d⟩
  · exact ⟨d, rfl, rfl, rfl⟩

theorem WellFormed.atomic (hwf : t.WellFormed) (p : Nat) (a : DevAtomic) :
    (t.atomic p a).WellFormed where
  bucket := by
    intro b q hq
    obtain ⟨d, hd, hb⟩ := hwf.bucket b q hq
    obtain ⟨d', hd', hid, -⟩ := (atomic_extends p a).device q d hd
    exact ⟨d', hd', by rw [hid]; exact hb⟩
  unique := by rw [atomic_idAt]; exact hwf.unique
  count := hwf.count

/-! ### Insertion -/

/-- Putting one more element in front of one chain adds it to the chains. -/
theorem flatMap_update_perm {β : Type} [DecidableEq β] (f : β → List Nat) (b : β) (x : Nat) {bs : List β}
    (hnodup : bs.Nodup) (hb : b ∈ bs) :
    (bs.flatMap (Function.update f b (x :: f b))).Perm (x :: bs.flatMap f) := by
  induction bs with
  | nil => simp at hb
  | cons c bs ih =>
      rw [List.nodup_cons] at hnodup
      rw [List.flatMap_cons, List.flatMap_cons]
      by_cases hbc : c = b
      · subst hbc
        have hrest : bs.flatMap (Function.update f c (x :: f c)) = bs.flatMap f := by
          refine List.flatMap_congr ?_
          intro d hd
          rw [Function.update_of_ne]
          rintro rfl
          exact hnodup.1 hd
        rw [Function.update_self, hrest]
        exact List.Perm.refl _
      · rw [Function.update_of_ne hbc]
        have hmem : b ∈ bs := (List.mem_cons.mp hb).resolve_left (Ne.symm hbc)
        exact ((ih hnodup.2 hmem).append_left (f c)).trans List.perm_middle

theorem insert_chained_perm (id sessionId : UInt32) (now : Int) :
    (t.insert id sessionId now).chained.Perm (t.heap.length :: t.chained) :=
  flatMap_update_perm t.buckets (dtHash id) t.heap.length (List.nodup_finRange _) (List.mem_finRange _)

/-- Chained devices are on the heap. -/
theorem WellFormed.lt_length (hwf : t.WellFormed) {b : Fin TABLE_BUCKETS} {p : Nat}
    (hp : p ∈ t.buckets b) : p < t.heap.length := by
  obtain ⟨d, hd, -⟩ := hwf.bucket b p hp
  exact (List.getElem?_eq_some_iff.mp hd).1

theorem insert_extends (id sessionId : UInt32) (now : Int) : t.Extends (t.insert id sessionId now) := by
  constructor
  · intro p d hd
    have hlt := (List.getElem?_eq_some_iff.mp hd).1
    exact ⟨d, by rw [insert_heap hlt]; exact hd, rfl, rfl⟩
  · intro b
    by_cases hb : b = dtHash id
    · subst hb
      simp [insert]
    · simp [insert, hb]

theorem insert_idAt_old {id sessionId : UInt32} {now : Int} {p : Nat} (hp : p < t.heap.length) :
    (t.insert id sessionId now).idAt p = t.idAt p := by
  rw [idAt, idAt, insert_heap hp]

/-- A lookup finds every chained id. -/
theorem WellFormed.idAt_ne_of_lookup_none (hwf : t.WellFormed) {id : UInt32} (hnone : t.lookup id = none)
    {p : Nat} (hp : p ∈ t.chained) : t.idAt p ≠ some id := by
  intro hid
  obtain ⟨b, hb⟩ := mem_chained.mp hp
  obtain ⟨d, hd, hhash⟩ := hwf.bucket b p hb
  rw [idAt, hd, Option.map_some, Option.some.injEq] at hid
  subst hid hhash
  exact lookup_none hnone p hb (by rw [idAt, hd]; rfl)

theorem WellFormed.insert (hwf : t.WellFormed) {id : UInt32} (hnone : t.lookup id = none)
    (sessionId : UInt32) (now : Int) : (t.insert id sessionId now).WellFormed where
  bucket := by
    intro b p hp
    have hcases : (p = t.heap.length ∧ b = dtHash id) ∨ p ∈ t.buckets b := by
      by_cases hb : b = dtHash id
      · subst hb
        simp only [DeviceTable.insert, Function.update_self, List.mem_cons] at hp
        exact hp.imp (fun h => ⟨h, rfl⟩) (fun h => h)
      · simp only [DeviceTable.insert, Function.update_of_ne hb] at hp
        exact Or.inr hp
    rcases hcases with ⟨rfl, rfl⟩ | hp
    · exact ⟨newDevice id sessionId now, by simp [DeviceTable.insert], rfl⟩
    · rw [insert_heap (hwf.lt_length hp)]
      exact hwf.bucket b p hp
  unique := by
    have hperm := (insert_chained_perm (t := t) id sessionId now).map (t.insert id sessionId now).idAt
    rw [hperm.nodup_iff, List.map_cons, List.nodup_cons, insert_idAt]
    have hold : t.chained.map (t.insert id sessionId now).idAt = t.chained.map t.idAt := by
      refine List.map_congr_left ?_
      intro p hp
      obtain ⟨b, hb⟩ := mem_chained.mp hp
      exact insert_idAt_old (hwf.lt_length hb)
    rw [hold]
    refine ⟨?_, hwf.unique⟩
    intro hmem
    obtain ⟨p, hp, hid⟩ := List.mem_map.mp hmem
    exact hwf.idAt_ne_of_lookup_none hnone hp hid
  count := by
    have hlen := (insert_chained_perm (t := t) id sessionId now).length_eq
    rw [hlen, List.length_cons]
    show (t.deviceCount + 1).toNat = _
    rw [UInt32.toNat_add, hwf.count]
    show (t.chained.length % 2 ^ 32 + 1) % 2 ^ 32 = _
    omega

/-- Inserting an id changes no lookup of another. -/
theorem WellFormed.insert_lookup_ne (hwf : t.WellFormed) {id id' : UInt32} (hne : id ≠ id')
    (sessionId : UInt32) (now : Int) : (t.insert id sessionId now).lookup id' = t.lookup id' := by
  have hchain : ((t.buckets (dtHash id')).find? fun q => (t.insert id sessionId now).idAt q = some id') =
      t.lookup id' := by
    rw [lookup, findLocked]
    refine List.find?_congr ?_
    intro q hq
    rw [insert_idAt_old (hwf.lt_length hq)]
  rw [lookup, findLocked]
  by_cases hb : dtHash id' = dtHash id
  · have hbucket : (t.insert id sessionId now).buckets (dtHash id') =
        t.heap.length :: t.buckets (dtHash id') := by
      rw [hb]
      exact Function.update_self _ _ _
    rw [hbucket, List.find?_cons_of_neg, hchain]
    rw [insert_idAt]
    simpa using hne
  · have hbucket : (t.insert id sessionId now).buckets (dtHash id') = t.buckets (dtHash id') := by
      simp only [DeviceTable.insert, Function.update_of_ne hb]
    rw [hbucket, hchain]

/-- What was found is still found after another id has been inserted. -/
theorem WellFormed.insert_lookup_old (hwf : t.WellFormed) {id sessionId : UInt32} {now : Int}
    (hnone : t.lookup id = none) {id' : UInt32} {p : Nat} (hp : t.lookup id' = some p) :
    (t.insert id sessionId now).lookup id' = some p := by
  have hne : id ≠ id' := by
    rintro rfl
    rw [hnone] at hp
    cases hp
  rw [hwf.insert_lookup_ne hne, hp]

end DeviceTable

/-! ### What one operation does to the table -/

/-- The operation with the answer it gets. -/
abbrev answer (o : ServerOp) (conn : Conn) (ctx : ServerCtx) : Event ServerSig :=
  ⟨o, (serverHandler o (conn, ctx)).1⟩

/-- The shared state after the operation. -/
abbrev ServerCtx.after (ctx : ServerCtx) (o : ServerOp) (conn : Conn) : ServerCtx :=
  (serverHandler o (conn, ctx)).2.2

/-- An operation leaves the table, inserts an id the table does not hold, or changes one device. -/
theorem devices_step (o : ServerOp) (conn : Conn) (ctx : ServerCtx) :
    (((ctx.after o conn).devices = ctx.devices ∧ ∀ p a, o ≠ .device p a) ∨
      ∃ p a, o = .device p a ∧ (ctx.after o conn).devices = ctx.devices.atomic p a) ∨
    ∃ id sid now, ctx.devices.lookup id = none ∧
      answer o conn ctx = ⟨.insert id sid, .inserted ctx.devices.heap.length⟩ ∧
      (ctx.after o conn).devices = ctx.devices.insert id sid now := by
  cases o with
  | device p a => exact Or.inl (Or.inr ⟨p, a, rfl, rfl⟩)
  | insert id sid =>
      simp only [ServerCtx.after, answer, serverHandler, dtInsertLocked]
      cases hfind : ctx.devices.lookup id with
      | some q => exact Or.inl (Or.inl ⟨rfl, nofun⟩)
      | none =>
          by_cases hok : (draw true ctx.choices.callocs).1 = true
          · simp only [hok, if_true]
            exact Or.inr ⟨id, sid, (draw 0 ctx.choices.times).1, hfind, rfl, rfl⟩
          · simp only [Bool.not_eq_true] at hok
            simp only [hok]
            exact Or.inl (Or.inl ⟨rfl, nofun⟩)
  | writeFile path bytes =>
      refine Or.inl (Or.inl ⟨?_, nofun⟩)
      simp only [ServerCtx.after, serverHandler]
      split <;> rfl
  | _ => exact Or.inl (Or.inl ⟨rfl, nofun⟩)

theorem extends_step (o : ServerOp) (conn : Conn) (ctx : ServerCtx) :
    ctx.devices.Extends (ctx.after o conn).devices := by
  rcases devices_step o conn ctx with (⟨hsame, -⟩ | ⟨p, a, -, hatomic⟩) | ⟨id, sid, now, -, -, hinsert⟩
  · rw [hsame]
    exact DeviceTable.extends_refl _
  · rw [hatomic]
    exact DeviceTable.atomic_extends p a
  · rw [hinsert]
    exact DeviceTable.insert_extends id sid now

theorem wellFormed_step {ctx : ServerCtx} (hwf : ctx.devices.WellFormed) (o : ServerOp) (conn : Conn) :
    (ctx.after o conn).devices.WellFormed := by
  rcases devices_step o conn ctx with (⟨hsame, -⟩ | ⟨p, a, -, hatomic⟩) | ⟨id, sid, now, hnone, -, hinsert⟩
  · rw [hsame]
    exact hwf
  · rw [hatomic]
    exact hwf.atomic p a
  · rw [hinsert]
    exact hwf.insert hnone sid now

/-- A device that is found stays where it is. -/
theorem lookup_step {ctx : ServerCtx} (hwf : ctx.devices.WellFormed) {id : UInt32} {p : Nat}
    (hp : ctx.devices.lookup id = some p) (o : ServerOp) (conn : Conn) :
    (ctx.after o conn).devices.lookup id = some p := by
  rcases devices_step o conn ctx with (⟨hsame, -⟩ | ⟨q, a, -, hatomic⟩) | ⟨id', sid, now, hnone, -, hinsert⟩
  · rw [hsame, hp]
  · rw [hatomic, DeviceTable.atomic_lookup, hp]
  · rw [hinsert]
    exact hwf.insert_lookup_old hnone hp

/-! ### What the threads were told -/

/-- The device an operation named for an id. -/
def named : Event ServerSig → Option (UInt32 × Nat)
  | ⟨.find id, hit⟩ => hit.map fun p => (id, p)
  | ⟨.insert id _, r⟩ => r.device.map fun p => (id, p)
  | _ => none

theorem named_lookup {o : ServerOp} {conn : Conn} {ctx : ServerCtx} {id : UInt32} {p : Nat}
    (hnamed : named (answer o conn ctx) = some (id, p)) :
    (ctx.after o conn).devices.lookup id = some p := by
  cases o with
  | find id' =>
      simp only [named, serverHandler, Option.map_eq_some_iff] at hnamed
      obtain ⟨q, hq, he⟩ := hnamed
      cases he
      exact hq
  | insert id' sid =>
      simp only [named, serverHandler, dtInsertLocked] at hnamed
      simp only [ServerCtx.after, serverHandler, dtInsertLocked]
      cases hfind : ctx.devices.lookup id' with
      | some q =>
          simp only [hfind, Insertion.device, Option.map_some, Option.some.injEq, Prod.mk.injEq] at hnamed
          obtain ⟨rfl, rfl⟩ := hnamed
          exact hfind
      | none =>
          simp only [hfind] at hnamed ⊢
          split_ifs at hnamed ⊢ with hok
          · simp only [Insertion.device, Option.map_some, Option.some.injEq, Prod.mk.injEq] at hnamed
            obtain ⟨rfl, rfl⟩ := hnamed
            exact DeviceTable.insert_lookup _ _ _
          · cases hnamed
  | _ => cases hnamed

/-- Why a call for `id` may return `dev`: an operation named the device, or memory ran out. -/
def Grounds (t : List (Event ServerSig)) (id : UInt32) : Option Nat → Prop
  | some p => ∃ e ∈ t, named e = some (id, p)
  | none => ∃ sid, ⟨.insert id sid, .noMemory⟩ ∈ t

theorem Grounds.mono {t t' : List (Event ServerSig)} (hsub : t ⊆ t') {id : UInt32} {dev : Option Nat}
    (hgrounds : Grounds t id dev) : Grounds t' id dev := by
  cases dev with
  | some p =>
      obtain ⟨e, he, hnamed⟩ := hgrounds
      exact ⟨e, hsub he, hnamed⟩
  | none =>
      obtain ⟨sid, hsid⟩ := hgrounds
      exact ⟨sid, hsub hsid⟩

/-- What a call returns has its grounds in what it performed. -/
theorem dtGetOrCreate_path {id sid : UInt32} {t : List (Event ServerSig)} {dev : Option Nat}
    (hpath : (dtGetOrCreate id sid).Path t dev) : Grounds t id dev := by
  obtain ⟨hit, t₁, rfl, hrest⟩ := path_ask_iff.mp hpath
  cases hit with
  | some p =>
      obtain ⟨_, t₂, rfl, hret⟩ := path_ask_iff.mp hrest
      obtain ⟨-, rfl⟩ := Proc.path_ret_iff.mp hret
      exact ⟨_, List.mem_cons_self, rfl⟩
  | none =>
      obtain ⟨r, t₂, rfl, hreturned⟩ := path_ask_iff.mp hrest
      obtain ⟨_, t₃, rfl, hret⟩ := path_ask_iff.mp hreturned
      obtain ⟨-, rfl⟩ := Proc.path_ret_iff.mp hret
      cases r with
      | found p => exact ⟨_, List.mem_cons_of_mem _ List.mem_cons_self, rfl⟩
      | inserted p => exact ⟨_, List.mem_cons_of_mem _ List.mem_cons_self, rfl⟩
      | noMemory => exact ⟨sid, List.mem_cons_of_mem _ List.mem_cons_self⟩

abbrev ServerLog (ι : Type) := List (ι × Event ServerSig)

/-- What the answers that named a device said still holds, whatever else was inserted or not. -/
structure Told {ι : Type} (log : ServerLog ι) (ctx : ServerCtx) : Prop where
  wellFormed : ctx.devices.WellFormed
  told : ∀ entry ∈ log, ∀ id p, named entry.2 = some (id, p) → ctx.devices.lookup id = some p

theorem Told.step {ι : Type} {log : ServerLog ι} {ctx : ServerCtx} (hlog : Told log ctx) (i : ι) (o : ServerOp)
    (conn : Conn) : Told (log ++ [(i, answer o conn ctx)]) (ctx.after o conn) where
  wellFormed := wellFormed_step hlog.wellFormed o conn
  told := by
    intro entry hentry id p hnamed
    rcases List.mem_append.mp hentry with hold | hnew
    · exact lookup_step hlog.wellFormed (hlog.told entry hold id p hnamed) o conn
    · rw [List.mem_singleton] at hnew
      subst hnew
      exact named_lookup hnamed

/-- What the log of a run without allocation failures says about the table: every answer that named a
device still holds, and no insertion failed. -/
structure TableLog {ι : Type} (log : ServerLog ι) (ctx : ServerCtx) : Prop where
  wellFormed : ctx.devices.WellFormed
  callocs : ∀ ok ∈ ctx.choices.callocs, ok = true
  told : ∀ entry ∈ log, ∀ id p, named entry.2 = some (id, p) → ctx.devices.lookup id = some p
  memory : ∀ entry ∈ log, ∀ id sid, entry.2 ≠ ⟨.insert id sid, .noMemory⟩

/-- Every device was inserted by one of the operations, with its id and session. -/
def InsertedIn {ι : Type} (log : ServerLog ι) (ctx : ServerCtx) : Prop :=
  ∀ (p : Nat) (d : Device), ctx.devices.heap[p]? = some d →
    ∃ i, (i, ⟨.insert d.id d.sessionId, .inserted p⟩) ∈ log

theorem callocs_step {ctx : ServerCtx} (hok : ∀ ok ∈ ctx.choices.callocs, ok = true) (o : ServerOp)
    (conn : Conn) : ∀ ok ∈ (ctx.after o conn).choices.callocs, ok = true := by
  cases o with
  | insert id sid => exact fun ok h => hok ok (mem_draw_of_mem h)
  | writeFile path bytes =>
      simp only [ServerCtx.after, serverHandler]
      split <;> exact hok
  | _ => exact hok

theorem memory_step {ctx : ServerCtx} (hok : ∀ ok ∈ ctx.choices.callocs, ok = true) (o : ServerOp)
    (conn : Conn) (id sid : UInt32) : answer o conn ctx ≠ ⟨.insert id sid, .noMemory⟩ := by
  cases o with
  | insert id' sid' =>
      have hdraw : (draw true ctx.choices.callocs).1 = true :=
        (draw_all (P := fun ok => ok = true) rfl hok).1
      simp only [answer, serverHandler, dtInsertLocked, hdraw, if_true]
      intro he
      split at he <;> cases he
  | _ =>
      intro he
      cases he

theorem TableLog.step {ι : Type} {log : ServerLog ι} {ctx : ServerCtx} (hlog : TableLog log ctx) (i : ι)
    (o : ServerOp) (conn : Conn) : TableLog (log ++ [(i, answer o conn ctx)]) (ctx.after o conn) where
  wellFormed := wellFormed_step hlog.wellFormed o conn
  callocs := callocs_step hlog.callocs o conn
  told := (Told.step ⟨hlog.wellFormed, hlog.told⟩ i o conn).told
  memory := by
    intro entry hentry id sid
    rcases List.mem_append.mp hentry with hold | hnew
    · exact hlog.memory entry hold id sid
    · rw [List.mem_singleton] at hnew
      subst hnew
      exact memory_step hlog.callocs o conn id sid

theorem InsertedIn.step {ι : Type} {log : ServerLog ι} {ctx : ServerCtx} (hlog : InsertedIn log ctx)
    (i : ι) (o : ServerOp) (conn : Conn) :
    InsertedIn (log ++ [(i, answer o conn ctx)]) (ctx.after o conn) := by
  intro p d hd
  rcases devices_step o conn ctx with (⟨hsame, -⟩ | ⟨q, a, -, hatomic⟩) | ⟨id, sid, now, -, hans, hinsert⟩
  · rw [hsame] at hd
    obtain ⟨j, hj⟩ := hlog p d hd
    exact ⟨j, List.mem_append_left _ hj⟩
  · -- an atomic changes neither id nor session
    rw [hatomic, DeviceTable.atomic_heap] at hd
    split_ifs at hd
    · obtain ⟨d₀, hd₀, rfl⟩ := Option.map_eq_some_iff.mp hd
      obtain ⟨j, hj⟩ := hlog p d₀ hd₀
      refine ⟨j, List.mem_append_left _ ?_⟩
      rw [a.apply_id, a.apply_sessionId]
      exact hj
    · obtain ⟨j, hj⟩ := hlog p d hd
      exact ⟨j, List.mem_append_left _ hj⟩
  · rw [hinsert] at hd
    by_cases hp : p < ctx.devices.heap.length
    · rw [DeviceTable.insert_heap hp] at hd
      obtain ⟨j, hj⟩ := hlog p d hd
      exact ⟨j, List.mem_append_left _ hj⟩
    · obtain ⟨rfl, rfl⟩ : p = ctx.devices.heap.length ∧ d = DeviceTable.newDevice id sid now := by
        have hlt := (List.getElem?_eq_some_iff.mp hd).1
        simp only [DeviceTable.insert, List.length_append, List.length_singleton] at hlt
        have hp' : p = ctx.devices.heap.length := by omega
        subst hp'
        simpa [DeviceTable.insert, eq_comm] using hd
      refine ⟨i, List.mem_append_right _ ?_⟩
      rw [hans]
      exact List.mem_singleton_self _

end PulseLink
