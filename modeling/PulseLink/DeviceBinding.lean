import PulseLink.DeviceAccounts

/-! The device of an ACTIVE worker. The HELLO handshake goes on to state ACTIVE whether `dt_get_or_create`
found the device, created it or returned NULL. In the first two cases the worker holds the table's entry for
the id of its HELLO from then on, whatever the other workers insert; in the third it holds nothing, and the
first SENSOR packet dereferences NULL. -/

namespace PulseLink

/-- A call of `dt_get_or_create` found no memory for a new device. -/
def OutOfMemory (t : List (Event ServerSig)) : Prop := ∃ id sid, ⟨.insert id sid, .noMemory⟩ ∈ t

/-- The event is not such a failure. -/
def Fed (e : Event ServerSig) : Prop := ∀ id sid, e ≠ ⟨.insert id sid, .noMemory⟩

theorem outOfMemory_concat {t : List (Event ServerSig)} {e : Event ServerSig} (he : Fed e) :
    OutOfMemory (t ++ [e]) ↔ OutOfMemory t := by
  refine exists_congr fun id => exists_congr fun sid => ?_
  rw [List.mem_append, List.mem_singleton, or_iff_left (he id sid).symm]

theorem not_outOfMemory_concat {t : List (Event ServerSig)} {e : Event ServerSig} (ht : ¬ OutOfMemory t)
    (he : Fed e) : ¬ OutOfMemory (t ++ [e]) :=
  (outOfMemory_concat he).not.mpr ht

theorem fed_of_op {e : Event ServerSig} (he : ∀ id sid, e.op ≠ .insert id sid) : Fed e := by
  rintro id sid rfl
  exact he id sid rfl

theorem fed_insert {id sid : UInt32} {r : Insertion} (hr : r ≠ .noMemory) : Fed ⟨.insert id sid, r⟩ := by
  intro id' sid' heq
  obtain ⟨hop, hans⟩ := Event.mk.inj heq
  cases hop
  exact hr (eq_of_heq hans)

/-- What a worker holds for the device `id` after performing `t`: an entry the table named to it, or nothing
for want of memory. -/
def HoldsDevice (t : List (Event ServerSig)) (id : UInt32) : Option Nat → Prop
  | some p => Grounds t id (some p) ∧ ¬ OutOfMemory t
  | none => OutOfMemory t

theorem HoldsDevice.concat {t : List (Event ServerSig)} {id : UInt32} {dev : Option Nat}
    (hholds : HoldsDevice t id dev)
    {e : Event ServerSig} (he : Fed e) : HoldsDevice (t ++ [e]) id dev := by
  cases dev with
  | none => exact (outOfMemory_concat he).mpr hholds
  | some p => exact ⟨hholds.1.concat e, not_outOfMemory_concat hholds.2 he⟩

/-! ### Along the dialogue -/

/-- What a connection holds in a stage of its dialogue. -/
def Binding : Stage → List (Event ServerSig) → Prop
  | .waiting, t => acceptedHeaders t = [] ∧ ¬ OutOfMemory t
  | .greeted h, t => openingHello t = some h ∧ ¬ OutOfMemory t
  | .granted h _ none, t => openingHello t = some h ∧ ¬ OutOfMemory t
  | .granted h _ (some dev), t => openingHello t = some h ∧ HoldsDevice t h.deviceId dev
  | .bound h _ dev, t => openingHello t = some h ∧ HoldsDevice t h.deviceId dev
  | .serving dev _, t => ∃ h, openingHello t = some h ∧ HoldsDevice t h.deviceId dev
  | .refused _, _ => True

theorem openingHello_concat {t : List (Event ServerSig)} {h : PlHeader} (hhello : openingHello t = some h)
    (e : Event ServerSig) : openingHello (t ++ [e]) = some h :=
  (openingHello_after (headers_ne_nil hhello) e).trans hhello

theorem Serves.fed {dev : Option Nat} {due due' : Option DevAtomic} {e : Event ServerSig}
    (hserves : Serves dev due e due') : Fed e := by
  cases hserves with
  | aside _ he =>
      refine fed_of_op fun id sid hop => ?_
      rw [hop] at he
      exact he
  | store => exact fed_of_op nofun
  | count => exact fed_of_op nofun
  | accept => exact fed_of_op nofun
  | reject => exact fed_of_op nofun
  | feed => exact fed_of_op nofun

theorem fed_of_waiting {e : Event ServerSig} (he : Waiting e.op = true) : Fed e := by
  refine fed_of_op fun id sid hop => ?_
  rw [hop] at he
  cases he

theorem Binding.move {st st' : Stage} {e : Event ServerSig} {t : List (Event ServerSig)} (ht : Binding st t)
    (hmove : Moves st e st') : Binding st' (t ++ [e]) := by
  cases hmove with
  | wait he =>
      exact ⟨(acceptedHeaders_waiting t he).trans ht.1, not_outOfMemory_concat ht.2 (fed_of_waiting he)⟩
  | @greet h payload hpasses htype =>
      refine ⟨?_, not_outOfMemory_concat ht.2 (fed_of_op (by simp))⟩
      rw [openingHello, acceptedHeaders_concat, ht.1]
      simp [acceptedHeader, htype]
  | refuse => trivial
  | grant h sessionId =>
      exact ⟨openingHello_concat ht.1 _, not_outOfMemory_concat ht.2 (fed_of_op (by simp))⟩
  | find h sessionId hit =>
      have hmem := List.mem_append_right t (List.mem_singleton_self (⟨.find h.deviceId, hit⟩ : Event ServerSig))
      cases hit with
      | none => exact ⟨openingHello_concat ht.1 _, not_outOfMemory_concat ht.2 (fed_of_op (by simp))⟩
      | some p =>
          exact ⟨openingHello_concat ht.1 _, ⟨_, hmem, rfl⟩, not_outOfMemory_concat ht.2 (fed_of_op (by simp))⟩
  | insert h sessionId r =>
      refine ⟨openingHello_concat ht.1 _, ?_⟩
      have hmem := List.mem_append_right t
        (List.mem_singleton_self (⟨.insert h.deviceId sessionId, r⟩ : Event ServerSig))
      cases r with
      | found p => exact ⟨⟨_, hmem, rfl⟩, not_outOfMemory_concat ht.2 (fed_insert (by simp))⟩
      | inserted p => exact ⟨⟨_, hmem, rfl⟩, not_outOfMemory_concat ht.2 (fed_insert (by simp))⟩
      | noMemory => exact ⟨h.deviceId, sessionId, hmem⟩
  | bind h sessionId dev => exact ⟨openingHello_concat ht.1 _, ht.2.concat (fed_of_op (by simp))⟩
  | answer h sessionId dev sent => exact ⟨h, openingHello_concat ht.1 _, ht.2.concat (fed_of_op (by simp))⟩
  | serve hserves =>
      obtain ⟨h, hhello, hholds⟩ := ht
      exact ⟨h, openingHello_concat hhello _, hholds.concat hserves.fed⟩
  | leave => trivial

theorem binding_of_accepts {st : Stage} {t : List (Event ServerSig)}
    (haccepts : Monitor.Accepts Stage.next .waiting t st) : Binding st t := by
  have hstart : Binding .waiting [] := ⟨rfl, by rintro ⟨id, sid, hmem⟩; cases hmem⟩
  exact haccepts.invariant (P := Binding) (fun _ _ _ _ ht hnext => ht.move (moves_of_next hnext)) hstart

/-- A connection that serves packets keeps its device. -/
theorem serving_of_accepts {dev : Option Nat} {due : Option DevAtomic} {t : List (Event ServerSig)} {st : Stage}
    (haccepts : Monitor.Accepts Stage.next (.serving dev due) t st) : ∃ due', st = .serving dev due' := by
  generalize hst : Stage.serving dev due = st₀ at haccepts
  induction haccepts generalizing due with
  | nil st => exact ⟨due, hst.symm⟩
  | @cons st st₁ st' e t hmove _ ih =>
      subst hst
      cases moves_of_next hmove with
      | serve hserves => exact ih rfl

/-- **What an ACTIVE worker holds**, at any point of a turn: the entry named to it for the id of its HELLO, or
nothing if it ran out of memory. -/
theorem active_holds {cfg : Config} {payload : PayloadBuf} {t₁ t₂ : List (Event ServerSig)} {l : Locals}
    (harrives : Loop.Arrives (clientWorker cfg) (.enter payload) t₁ (.running l)) (hstate : l.state ≠ .waitHello)
    {q : ServerProc (WorkerPc ⊕ ExitReason)} (hreach : (clientWorker cfg (.running l)).Reach t₂ q) :
    ∃ h, openingHello (t₁ ++ t₂) = some h ∧ HoldsDevice (t₁ ++ t₂) h.deviceId l.dev := by
  obtain ⟨st, haccepts, hst⟩ := harrives.accepts (m := Stage.next) (J := InStage) (E := LeftIn)
    (fun _ _ hst => worker_follows cfg hst) (show InStage (.enter payload) .waiting from rfl)
  rcases hst with ⟨hwait, -, -⟩ | ⟨-, rfl⟩
  · exact absurd hwait hstate
  obtain ⟨st', haccepts', -⟩ := (worker_follows cfg (show InStage (.running l) (.serving l.dev none) from
    Or.inr ⟨hstate, rfl⟩)).reach hreach
  obtain ⟨due, rfl⟩ := serving_of_accepts haccepts'
  exact binding_of_accepts (haccepts.append haccepts')

/-! ### Under any interleaving -/

/-- A turn crashes only for want of a device. -/
theorem crash_dev {cfg : Config} {l : Locals} {t : List (Event ServerSig)}
    (hpath : (clientTurn cfg l).Path t (.inr .crash)) : l.state ≠ .waitHello ∧ l.dev = none := by
  obtain ⟨reads, post, -, -, ⟨-, hwaits⟩ | ⟨-, payload, h, hdecides⟩⟩ := clientTurn_path hpath
  · rcases hwaits with hx | ⟨why, hx, hwhy⟩
    · cases hx
    · cases hx
      exact absurd rfl hwhy
  · rcases hdecides.exit with hwhy | ⟨-, hdev⟩
    · exact absurd hwhy (by decide)
    · exact hdev

/-- A worker that ends by a crash crashes in a turn of its loop. -/
theorem crash_turn {cfg : Config} {pc : WorkerPc} {t : List (Event ServerSig)}
    (hpath : (clientWorker cfg pc).Path t (.inr .crash)) (hleave : pc ≠ .leave .crash) :
    ∃ l, pc = .running l ∧ l.state ≠ .waitHello ∧ l.dev = none := by
  cases pc with
  | enter payload =>
      obtain ⟨_, t', -, hret⟩ := path_ask_iff.mp hpath
      cases (Proc.path_ret_iff.mp hret).2
  | leave why =>
      have hwhy := ((leave_plain cfg why).path hpath).2
      cases hwhy
      exact absurd rfl hleave
  | running l =>
      obtain ⟨t₁, x, t₂, -, hturn, hret⟩ := Proc.path_bind_iff.mp hpath
      have hx := (Proc.path_ret_iff.mp hret).2
      cases x with
      | inl l' => cases hx
      | inr why =>
          cases why with
          | crash => exact ⟨l, rfl, crash_dev hturn⟩
          | _ => cases hx

/-- No worker goes to its cleanup after a crash. -/
theorem arrives_not_crashed {cfg : Config} {payload : PayloadBuf} {t : List (Event ServerSig)} {pc : WorkerPc}
    (harrives : Loop.Arrives (clientWorker cfg) (.enter payload) t pc) : pc ≠ .leave .crash := by
  refine @Loop.Arrives.invariant _ _ _ _ (fun pc _ => pc ≠ .leave .crash) ?_ _ _ [] _
    (show WorkerPc.enter payload ≠ .leave .crash from nofun) harrives
  rintro pc t₀ turn pc' - hpath rfl
  cases pc with
  | enter payload =>
      obtain ⟨_, t', -, hret⟩ := path_ask_iff.mp hpath
      cases (Proc.path_ret_iff.mp hret).2
  | leave why => cases ((leave_plain cfg why).path hpath).2
  | running l =>
      obtain ⟨t₁, x, t₂, -, -, hret⟩ := Proc.path_bind_iff.mp hpath
      have hx := (Proc.path_ret_iff.mp hret).2
      cases x with
      | inl l' => cases hx
      | inr why => cases why <;> cases hx

/-- **An ACTIVE worker holds its device exactly when there was memory for it.** Under any interleaving of
workers, at any point of a turn in state ACTIVE, `dev` is the table's entry for the id of the accepted HELLO if
and only if the worker's own `dt_get_or_create` did not run out of memory; and only a worker that did calls
`dt_record_sensor` with NULL. -/
theorem active_device_iff {ι : Type} [DecidableEq ι] (cfg : Config) (payloads : ι → PayloadBuf) (conns : ι → Conn)
    (ctx : ServerCtx) (hwf : ctx.devices.WellFormed) (schedule : List ι) (i : ι) :
    let pool := workerPool cfg payloads conns ctx schedule
    let own := Pool.eventsOf pool.log i
    (∀ l, pool.InTurn (clientWorker cfg) (.enter (payloads i)) i (.running l) → l.state = .active →
      ∃ h, openingHello own = some h ∧
        ((∃ p, l.dev = some p ∧ pool.shared.devices.lookup h.deviceId = some p) ↔ ¬ OutOfMemory own)) ∧
    (pool.threads i = .done .crash → OutOfMemory own) := by
  intro pool own
  have htold : Told pool.log pool.shared :=
    Pool.shared_invariant (clientWorker cfg) serverHandler (fun log ctx => Told log ctx)
      (fun log ctx i o conn hlog => hlog.step i o conn)
        ⟨hwf, fun _ hentry => absurd hentry List.not_mem_nil⟩ schedule
  constructor
  · rintro l ⟨t₁, t₂, p, -, hown, harrives, hreach⟩ hactive
    have hstate : l.state ≠ .waitHello := by
      rw [hactive]
      decide
    obtain ⟨h, hhello, hholds⟩ := active_holds harrives hstate hreach
    rw [← hown] at hhello hholds
    refine ⟨h, hhello, ?_⟩
    cases hdev : l.dev with
    | none =>
        rw [hdev] at hholds
        refine iff_of_false ?_ (not_not_intro hholds)
        rintro ⟨p, hp, -⟩
        cases hp
    | some p =>
        rw [hdev] at hholds
        obtain ⟨⟨e, he, hnamed⟩, hfed⟩ := hholds
        exact iff_of_true ⟨p, rfl, htold.told _ (Pool.mem_eventsOf.mp he) _ _ hnamed⟩ hfed
  · intro hcrash
    have hpath : Loop.Path (clientWorker cfg) (.enter (payloads i)) own .crash := Pool.thread_path hcrash
    obtain ⟨pc, t₁, t₂, hown, harrives, hlast⟩ := hpath.arrives
    obtain ⟨l, rfl, hstate, hdev⟩ := crash_turn hlast (arrives_not_crashed harrives)
    obtain ⟨h, -, hholds⟩ := active_holds harrives hstate hlast.reach
    rw [← hown, hdev] at hholds
    exact hholds

/-- A server whose first allocation fails or does not. -/
def serverWith (callocOk : Bool) : ServerCtx :=
  { freshServer with choices := { freshServer.choices with callocs := [callocOk] } }

/-- One worker, with a HELLO and a reading to come. -/
def oneWorker (callocOk : Bool) (steps : Nat) : Pool ServerSig Unit WorkerPc ExitReason Conn ServerCtx :=
  workerPool ⟨.little, none⟩ (fun _ => zeroPayload) (fun _ => scripted (unread oneReadingStream []))
    (serverWith callocOk) (List.replicate steps ())

/-- Without memory the HELLO is answered all the same, and the reading crashes the server. -/
theorem active_without_device : (oneWorker false 18).threads () = .done .crash := by
  rfl

/-- The locals after the HELLO. -/
def greetedLocals : Locals :=
  { Locals.init (zeroPayload.fill (helloPayload 1 0)) with state := .active, sessionId := 1, dev := some 0 }

theorem oneWorker_inTurn :
    (oneWorker true 12).InTurn (clientWorker ⟨.little, none⟩) (.enter zeroPayload) ()
      (.running greetedLocals) := by
  have hcomes : ∃ t w, Loop.Comes (clientWorker ⟨.little, none⟩) serverHandler (.enter zeroPayload)
      (scripted (unread oneReadingStream []), serverWith true) t (.running greetedLocals) w ∧
      Pool.eventsOf (oneWorker true 12).log () = t :=
    ⟨_, _, .turn rfl (.turn rfl (.here _ _)), rfl⟩
  obtain ⟨t, w, hcomes, hown⟩ := hcomes
  exact ⟨t, [], _, rfl, by rw [hown, List.append_nil], hcomes.arrives, .refl _⟩

theorem active_device_iff_oneWorker :
    ∃ h, openingHello (Pool.eventsOf (oneWorker true 12).log ()) = some h ∧
      (∃ p, greetedLocals.dev = some p ∧ (oneWorker true 12).shared.devices.lookup h.deviceId = some p) ∧
      ¬ OutOfMemory (Pool.eventsOf (oneWorker true 12).log ()) := by
  obtain ⟨h, hhello, hiff⟩ := (active_device_iff ⟨.little, none⟩ (fun _ => zeroPayload)
    (fun _ => scripted (unread oneReadingStream [])) (serverWith true) DeviceTable.wellFormed_init
    (List.replicate 12 ()) ()).1 greetedLocals oneWorker_inTurn rfl
  have hopened : openingHello (Pool.eventsOf (oneWorker true 12).log ()) =
      some (builtHeader PktType.hello.code 7 (helloPayload 1 0)) := by rfl
  obtain rfl := Option.some.inj (hopened.symm.trans hhello)
  have hheld : ∃ p, greetedLocals.dev = some p ∧ (oneWorker true 12).shared.devices.lookup 7 = some p :=
    ⟨0, rfl, by rfl⟩
  exact ⟨_, hhello, hheld, hiff.mp hheld⟩

end PulseLink
