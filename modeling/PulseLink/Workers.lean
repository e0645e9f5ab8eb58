import PulseLink.Accounts
import PulseLink.Dialogue

/-! Any number of connections, each with its worker, under any interleaving of the workers' operations. Two
facts hold of every worker wherever it stands: it has kept to the dialogue, and every device it touches was
named to it. -/

namespace PulseLink

/-! ### Every device a worker touches was named to it -/

/-- The precondition of an operation on a device. -/
def Known (t : List (Event ServerSig)) (o : ServerOp) : Prop :=
  ∀ p a, o = .device p a → ∃ id, Grounds t id (some p)

theorem Known.append {t : List (Event ServerSig)} {o : ServerOp} (hknown : Known t o)
    (t' : List (Event ServerSig)) : Known (t ++ t') o := by
  intro p a ho
  obtain ⟨id, hid⟩ := hknown p a ho
  exact ⟨id, hid.mono (List.subset_append_left _ _)⟩

/-- The device of a worker was named to it. -/
def Knows : WorkerPc → List (Event ServerSig) → Prop
  | .running l, t => ∀ p, l.dev = some p → ∃ id, Grounds t id (some p)
  | _, _ => True

theorem Knows.uses (cfg : Config) {pc : WorkerPc} {t : List (Event ServerSig)} (hknows : Knows pc t) :
    (clientWorker cfg pc).Uses (Known t) := by
  cases pc with
  | enter payload => exact within_ask nofun fun _ => trivial
  | running l =>
      refine Proc.Uses.bind ((clientTurn_turning cfg l).mono ?_ fun _ _ => trivial) fun _ => trivial
      rintro o ⟨ho, -⟩ p a rfl
      exact hknows p ho
  | leave why =>
      exact within_ask nofun fun _ => within_ask nofun fun _ => within_ask nofun fun _ =>
        within_ask nofun fun _ => trivial

theorem Knows.next {cfg : Config} {pc pc' : WorkerPc} {t turn : List (Event ServerSig)} (hknows : Knows pc t)
    (hpath : (clientWorker cfg pc).Path turn (.inl pc')) : Knows pc' (t ++ turn) := by
  cases pc' with
  | enter payload => trivial
  | leave why => trivial
  | running l' =>
      cases pc with
      | enter payload =>
          obtain ⟨_, t', rfl, hret⟩ := path_ask_iff.mp hpath
          obtain ⟨-, hpc⟩ := Proc.path_ret_iff.mp hret
          cases hpc
          nofun
      | leave why =>
          have hwithin : (clientWorker cfg (.leave why)).Within (fun _ => True) fun x => ∃ r, x = .inr r :=
            within_ask trivial fun _ => within_ask trivial fun _ => within_ask trivial fun _ =>
              within_ask trivial fun _ => ⟨why, rfl⟩
          obtain ⟨-, r, hr⟩ := hwithin.path hpath
          cases hr
      | running l =>
          obtain ⟨t₁, x, t₂, rfl, hturn, hret⟩ := Proc.path_bind_iff.mp hpath
          obtain ⟨rfl, hx⟩ := Proc.path_ret_iff.mp hret
          rw [List.append_nil]
          cases x with
          | inr why => cases why <;> cases hx
          | inl l₁ =>
              cases hx
              intro p hp
              have hkeep : l'.dev = l.dev → ∃ id, Grounds (t ++ t₁) id (some p) := by
                intro hdev
                obtain ⟨id, hid⟩ := hknows p (hdev.symm.trans hp)
                exact ⟨id, hid.mono (List.subset_append_left _ _)⟩
              cases TurnKind.of_path hturn with
              | idle _ hx => exact hkeep (hx l' rfl).1
              | sensor _ _ _ _ _ hdev => exact hkeep hdev
              | other _ _ _ _ hdev => exact hkeep hdev
              | @hello pre post h payload _ _ _ _ hx =>
                  have hgrounds := (hx l' rfl).2
                  rw [hp] at hgrounds
                  refine ⟨h.deviceId, hgrounds.mono ?_⟩
                  intro e he
                  simp [he]

/-! ### Pools of workers -/

/-- No packet is accepted in state WAIT_HELLO without leaving it. -/
theorem acceptedHeaders_waiting (t : List (Event ServerSig)) {e : Event ServerSig}
    (he : Waiting e.op = true) : acceptedHeaders (t ++ [e]) = acceptedHeaders t := by
  have hnone : acceptedHeader e = none := by
    obtain ⟨o, ans⟩ := e
    cases o with
    | decided h v =>
        cases v with
        | accepted payload => cases he
        | rejected e => rfl
    | _ => rfl
  simp [acceptedHeaders, hnone]

variable {ι : Type}

/-- What was performed, without who did it. -/
def events (log : ServerLog ι) : List (Event ServerSig) := log.map Prod.snd

theorem events_append (log log' : ServerLog ι) : events (log ++ log') = events log ++ events log' :=
  List.map_append

section Pools

variable [DecidableEq ι] (cfg : Config) (payloads : ι → PayloadBuf) (conns : ι → Conn) (ctx : ServerCtx)

/-- Workers, one for each connection, after the given schedule. -/
def workerPool (schedule : List ι) : Pool ServerSig ι WorkerPc ExitReason Conn ServerCtx :=
  Pool.run (clientWorker cfg) serverHandler
    (Pool.start (clientWorker cfg) (fun i => .enter (payloads i)) conns ctx) schedule

/-- What a worker has performed is a beginning of the dialogue, whole if the worker has left. -/
theorem workerPool_accepts (schedule : List ι) (i : ι) :
    ∃ st, Monitor.Accepts Stage.next .waiting
        (Pool.eventsOf (workerPool cfg payloads conns ctx schedule).log i) st ∧
      Monitor.Tracks Stage.next InStage LeftIn st ((workerPool cfg payloads conns ctx schedule).threads i) := by
  have hstands := Pool.thread_stands (clientWorker cfg) serverHandler (fun i => .enter (payloads i)) conns ctx
    schedule i
  exact hstands.accepts (fun _ _ hst => worker_follows cfg hst)
    (show InStage (.enter (payloads i)) .waiting from rfl)

end Pools

end PulseLink
