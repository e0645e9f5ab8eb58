import PulseLink.BasePool

/-! Threads that sleep on a wait queue. Some operations wait for a condition on the shared state: in one
step such an operation tests its condition and goes through, or puts its thread to sleep. A sleeping thread
does nothing until an operation that wakes the queue, after which it tests again, or until a signal, which
gives the operation its other answer. -/

namespace PulseLink

/-- What an operation has to do with the wait queue: nothing, it wakes everyone on it, or it waits there
until the condition holds, with one answer for going through and one for a signal. -/
inductive Blocking (I : Sig) (S : Type) (o : I.Op) where
  | never
  | wakes
  | waits (ready : S → Bool) (through interrupted : I.Ans o)

/-- A thread is scheduled, or gets a signal. -/
inductive Pick (ι : Type) where
  | sched (i : ι)
  | signal (i : ι)
  deriving DecidableEq, Repr

/-- A pool and who of it is asleep, not yet woken. -/
structure Dozing (I : Sig) (ι σ ρ L S : Type) where
  pool : Pool I ι σ ρ L S
  asleep : ι → Bool

namespace Dozing

variable {I : Sig} {ι σ ρ L S : Type} [DecidableEq ι]

/-- Thread `i` gets `ans` for the operation it stands at. -/
def answer (pool : Pool I ι σ ρ L S) (i : ι) (o : I.Op) (next : I.Ans o → Proc I (σ ⊕ ρ)) (ans : I.Ans o) :
    Pool I ι σ ρ L S :=
  { pool with
    threads := Function.update pool.threads i (.busy (next ans))
    log := pool.log ++ [(i, ⟨o, ans⟩)] }

/-- Everyone awake at the start of the loop. -/
def start (body : Loop I σ ρ) (begins : ι → σ) (locals : ι → L) (shared : S) : Dozing I ι σ ρ L S where
  pool := .start body begins locals shared
  asleep _ := false

def step (blocking : (o : I.Op) → Blocking I S o) (body : Loop I σ ρ) (h : Handler I (L × S))
    (d : Dozing I ι σ ρ L S) : Pick ι → Dozing I ι σ ρ L S
  | .sched i =>
      match d.pool.threads i with
      | .busy (.op o next) =>
          match blocking o with
          | .never => { d with pool := d.pool.step body h i }
          | .wakes => { pool := d.pool.step body h i, asleep := fun _ => false }
          | .waits ready through _ =>
              if d.asleep i then d
              else if ready d.pool.shared then { d with pool := answer d.pool i o next through }
              else { d with asleep := Function.update d.asleep i true }
      | _ => { d with pool := d.pool.step body h i }
  | .signal i =>
      match d.pool.threads i with
      | .busy (.op o next) =>
          match blocking o with
          | .waits _ _ interrupted =>
              if d.asleep i then
                { pool := answer d.pool i o next interrupted, asleep := Function.update d.asleep i false }
              else d
          | _ => d
      | _ => d

/-- The state after the given turns. -/
def run (blocking : (o : I.Op) → Blocking I S o) (body : Loop I σ ρ) (h : Handler I (L × S))
    (d : Dozing I ι σ ρ L S) (turns : List (Pick ι)) : Dozing I ι σ ρ L S :=
  turns.foldl (step blocking body h) d

section Steps

variable (blocking : (o : I.Op) → Blocking I S o) (body : Loop I σ ρ) (h : Handler I (L × S))

theorem run_invariant (J : Dozing I ι σ ρ L S → Prop)
    (hstep : ∀ d turn, J d → J (step blocking body h d turn)) {d : Dozing I ι σ ρ L S} (hd : J d)
    (turns : List (Pick ι)) : J (run blocking body h d turns) := by
  induction turns generalizing d with
  | nil => exact hd
  | cons turn rest ih => exact ih (hstep d turn hd)

/-- What one turn can do. -/
inductive Moves (d : Dozing I ι σ ρ L S) : Dozing I ι σ ρ L S → Prop where
  | idle : Moves d d
  | sleeps {i : ι} {o : I.Op} {next : I.Ans o → Proc I (σ ⊕ ρ)} {ready : S → Bool}
      {through interrupted : I.Ans o} (hthread : d.pool.threads i = .busy (.op o next))
      (hwaits : blocking o = .waits ready through interrupted) (hready : ready d.pool.shared = false) :
      Moves d { d with asleep := Function.update d.asleep i true }
  | acts (i : ι) (hnever : ∀ o next, d.pool.threads i = .busy (.op o next) → blocking o = .never) :
      Moves d { d with pool := d.pool.step body h i }
  | wakes {i : ι} {o : I.Op} {next : I.Ans o → Proc I (σ ⊕ ρ)}
      (hthread : d.pool.threads i = .busy (.op o next)) (hwakes : blocking o = .wakes) :
      Moves d { pool := d.pool.step body h i, asleep := fun _ => false }
  | returns {i : ι} {o : I.Op} {next : I.Ans o → Proc I (σ ⊕ ρ)} {ready : S → Bool}
      {through interrupted : I.Ans o} (hthread : d.pool.threads i = .busy (.op o next))
      (hwaits : blocking o = .waits ready through interrupted) (ans : I.Ans o) {asleep : ι → Bool}
      (hasleep : ∀ j, asleep j = true → d.asleep j = true) :
      Moves d { pool := answer d.pool i o next ans, asleep := asleep }

theorem step_moves (d : Dozing I ι σ ρ L S) (turn : Pick ι) :
    Moves blocking body h d (step blocking body h d turn) := by
  cases turn with
  | sched i =>
      rw [step]
      split
      · next o next hthread =>
          split
          · next hnever =>
              refine .acts i ?_
              intro o' next' hthread'
              rw [hthread] at hthread'
              cases hthread'
              exact hnever
          · next hwakes => exact .wakes hthread hwakes
          · next ready through interrupted hwaits =>
              split_ifs with hasleep hready
              · exact .idle
              · exact .returns hthread hwaits through fun _ hj => hj
              · exact .sleeps hthread hwaits (Bool.eq_false_of_not_eq_true hready)
      · next hother =>
          refine .acts i ?_
          intro o next hthread
          exact absurd hthread (hother o next)
  | signal i =>
      rw [step]
      split
      · next o next hthread =>
          split
          · next ready through interrupted hwaits =>
              split_ifs with hasleep
              · refine .returns hthread hwaits interrupted ?_
                intro j hj
                by_cases hji : j = i
                · subst hji
                  rw [Function.update_self] at hj
                  cases hj
                · rwa [Function.update_of_ne hji] at hj
              · exact .idle
          · exact .idle
      · exact .idle

end Steps

variable {blocking : (o : I.Op) → Blocking I S o} {body : Loop I σ ρ} {h : Handler I (L × S)}

theorem stands_answer {begins : ι → σ} {pool : Pool I ι σ ρ L S}
    (hpool : ∀ i, Pool.Stands body (begins i) (Pool.eventsOf pool.log i) (pool.threads i)) {j : ι} {o : I.Op}
    {next : I.Ans o → Proc I (σ ⊕ ρ)} (hthread : pool.threads j = .busy (.op o next)) (ans : I.Ans o)
    (i : ι) :
    Pool.Stands body (begins i) (Pool.eventsOf (answer pool j o next ans).log i)
      ((answer pool j o next ans).threads i) := by
  have hi := hpool i
  by_cases heq : i = j
  · subst heq
    rw [hthread] at hi
    simpa [answer, Pool.eventsOf_append_self] using hi.op ans
  · simpa [answer, heq, Pool.eventsOf_append_other _ _ (Ne.symm heq)] using hi

/-- Each thread stands where its own events took it. -/
theorem thread_stands (begins : ι → σ) (locals : ι → L) (shared : S) (turns : List (Pick ι)) (i : ι) :
    let d := run blocking body h (start body begins locals shared) turns
    Pool.Stands body (begins i) (Pool.eventsOf d.pool.log i) (d.pool.threads i) := by
  refine run_invariant blocking body h
    (fun d => ∀ i, Pool.Stands body (begins i) (Pool.eventsOf d.pool.log i) (d.pool.threads i)) ?_
    (fun _ => .inside (.refl _)) turns i
  intro d turn hd
  have hmoves := step_moves blocking body h d turn
  generalize step blocking body h d turn = d' at hmoves ⊢
  cases hmoves with
  | idle => exact hd
  | sleeps hthread hwaits hready => exact hd
  | acts j hnever => exact Pool.stands_step hd j
  | @wakes j o next hthread hwakes => exact Pool.stands_step hd j
  | returns hthread hwaits ans hasleep => exact stands_answer hd hthread ans

/-- A relation between the log, the shared state and the sleepers holds in every reachable state if the
operations keep it: plain ones, those that wake, those that go to sleep when their condition fails, and
those that return from waiting, possibly with one sleeper less. -/
theorem shared_invariant (K : List (ι × Event I) → S → (ι → Bool) → Prop)
    (hplain : ∀ log s asleep i o l, blocking o = .never → K log s asleep →
      K (log ++ [(i, ⟨o, (h o (l, s)).1⟩)]) (h o (l, s)).2.2 asleep)
    (hwake : ∀ log s asleep i o l, blocking o = .wakes → K log s asleep →
      K (log ++ [(i, ⟨o, (h o (l, s)).1⟩)]) (h o (l, s)).2.2 fun _ => false)
    (hsleep : ∀ log s asleep i o ready through interrupted,
      blocking o = .waits ready through interrupted → ready s = false → K log s asleep →
      K log s (Function.update asleep i true))
    (hreturn : ∀ log s asleep asleep' i o ready through interrupted ans,
      blocking o = .waits ready through interrupted → (∀ j, asleep' j = true → asleep j = true) →
      K log s asleep → K (log ++ [(i, ⟨o, ans⟩)]) s asleep')
    {d : Dozing I ι σ ρ L S} (hd : K d.pool.log d.pool.shared d.asleep) (turns : List (Pick ι)) :
    K (run blocking body h d turns).pool.log (run blocking body h d turns).pool.shared
      (run blocking body h d turns).asleep := by
  refine run_invariant blocking body h (fun d => K d.pool.log d.pool.shared d.asleep) ?_ hd turns
  intro d turn hK
  have hmoves := step_moves blocking body h d turn
  generalize step blocking body h d turn = d' at hmoves ⊢
  cases hmoves with
  | idle => exact hK
  | @sleeps i o next ready through interrupted hthread hwaits hready =>
      exact hsleep _ _ _ i o ready through interrupted hwaits hready hK
  | acts i hnever =>
      rcases Pool.step_cases body h d.pool i with ⟨-, hshared, hlog⟩ | ⟨o, next, hthread, hstep⟩
      · rw [hshared, hlog]
        exact hK
      · rw [hstep]
        exact hplain _ _ _ _ _ _ (hnever o next hthread) hK
  | @wakes i o next hthread hwakes =>
      simp only [Pool.step, hthread]
      exact hwake _ _ _ _ _ _ hwakes hK
  | @returns i o next ready through interrupted hthread hwaits ans asleep hasleep =>
      exact hreturn _ _ _ _ i o ready through interrupted ans hwaits hasleep hK

end Dozing

end PulseLink
