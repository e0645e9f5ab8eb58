import PulseLink.BaseProc

/-! Threads running the same loop from their own start states, one atomic operation at a time in any
order. Each thread owns a local environment, all of them share one state, and `log` records every
operation performed. Two facts carry the proofs about a pool: a relation between the log and the shared
state that every operation keeps holds in every reachable pool (`shared_invariant`), and the part of the
log that belongs to one thread is a path of its program (`thread_path`). -/

namespace PulseLink

/-- A thread: inside a turn of its loop, or finished. -/
inductive Thread (I : Sig) (σ ρ : Type) where
  | busy (rest : Proc I (σ ⊕ ρ))
  | done (result : ρ)

def Thread.finished {I : Sig} {σ ρ : Type} : Thread I σ ρ → Bool
  | .busy _ => false
  | .done _ => true

theorem Thread.finished_iff {I : Sig} {σ ρ : Type} {th : Thread I σ ρ} :
    th.finished = true ↔ ∃ r, th = .done r := by
  cases th with
  | busy rest => simp [finished]
  | done r => simp [finished]

structure Pool (I : Sig) (ι σ ρ L S : Type) where
  threads : ι → Thread I σ ρ
  locals : ι → L
  shared : S
  log : List (ι × Event I)

namespace Pool

variable {I : Sig} {ι σ ρ L S : Type} [DecidableEq ι]

/-- All threads at the start of their loops, nothing performed yet. -/
def start (body : Loop I σ ρ) (begins : ι → σ) (locals : ι → L) (shared : S) :
    Pool I ι σ ρ L S where
  threads i := .busy (body (begins i))
  locals := locals
  shared := shared
  log := []

/-- Thread `i` takes one step: it performs its next operation, starts its next turn, or leaves. -/
def step (body : Loop I σ ρ) (h : Handler I (L × S)) (pool : Pool I ι σ ρ L S) (i : ι) :
    Pool I ι σ ρ L S :=
  match pool.threads i with
  | .done _ => pool
  | .busy (.ret (.inr r)) => { pool with threads := Function.update pool.threads i (.done r) }
  | .busy (.ret (.inl s)) => { pool with threads := Function.update pool.threads i (.busy (body s)) }
  | .busy (.op o next) =>
      let result := h o (pool.locals i, pool.shared)
      { threads := Function.update pool.threads i (.busy (next result.1))
        locals := Function.update pool.locals i result.2.1
        shared := result.2.2
        log := pool.log ++ [(i, ⟨o, result.1⟩)] }

/-- The pool after the threads took steps in the given order. -/
def run (body : Loop I σ ρ) (h : Handler I (L × S)) (pool : Pool I ι σ ρ L S) (schedule : List ι) :
    Pool I ι σ ρ L S :=
  schedule.foldl (step body h) pool

/-- What thread `i` performed, in order. -/
def eventsOf (log : List (ι × Event I)) (i : ι) : List (Event I) :=
  (log.filter fun entry => entry.1 = i).map Prod.snd

section Steps

variable (body : Loop I σ ρ) (h : Handler I (L × S))

theorem run_append (pool : Pool I ι σ ρ L S) (first second : List ι) :
    run body h pool (first ++ second) = run body h (run body h pool first) second :=
  List.foldl_append

/-- A property that every step keeps holds after every schedule. -/
theorem run_invariant (P : Pool I ι σ ρ L S → Prop) (hstep : ∀ pool i, P pool → P (step body h pool i))
    {pool : Pool I ι σ ρ L S} (hpool : P pool) (schedule : List ι) :
    P (run body h pool schedule) := by
  induction schedule generalizing pool with
  | nil => exact hpool
  | cons i rest ih => exact ih (hstep pool i hpool)

/-- What one step can do: nothing to the log and the environments, or one operation of thread `i`. -/
theorem step_cases (pool : Pool I ι σ ρ L S) (i : ι) :
    ((step body h pool i).locals = pool.locals ∧ (step body h pool i).shared = pool.shared ∧
      (step body h pool i).log = pool.log) ∨
    ∃ o next, pool.threads i = .busy (.op o next) ∧
      step body h pool i =
        { threads := Function.update pool.threads i
            (.busy (next (h o (pool.locals i, pool.shared)).1))
          locals := Function.update pool.locals i (h o (pool.locals i, pool.shared)).2.1
          shared := (h o (pool.locals i, pool.shared)).2.2
          log := pool.log ++ [(i, ⟨o, (h o (pool.locals i, pool.shared)).1⟩)] } := by
  rw [step]
  split
  · exact Or.inl ⟨rfl, rfl, rfl⟩
  · exact Or.inl ⟨rfl, rfl, rfl⟩
  · exact Or.inl ⟨rfl, rfl, rfl⟩
  · next o next hthread => exact Or.inr ⟨o, next, hthread, rfl⟩

theorem step_op {pool : Pool I ι σ ρ L S} {i : ι} {o : I.Op} {next : I.Ans o → Proc I (σ ⊕ ρ)}
    (hthread : pool.threads i = .busy (.op o next)) :
    step body h pool i =
      { threads := Function.update pool.threads i (.busy (next (h o (pool.locals i, pool.shared)).1))
        locals := Function.update pool.locals i (h o (pool.locals i, pool.shared)).2.1
        shared := (h o (pool.locals i, pool.shared)).2.2
        log := pool.log ++ [(i, ⟨o, (h o (pool.locals i, pool.shared)).1⟩)] } := by
  rw [step, hthread]

theorem step_next {pool : Pool I ι σ ρ L S} {i : ι} {s : σ} (hthread : pool.threads i = .busy (.ret (.inl s))) :
    step body h pool i = { pool with threads := Function.update pool.threads i (.busy (body s)) } := by
  rw [step, hthread]

theorem step_leave {pool : Pool I ι σ ρ L S} {i : ι} {r : ρ} (hthread : pool.threads i = .busy (.ret (.inr r))) :
    step body h pool i = { pool with threads := Function.update pool.threads i (.done r) } := by
  rw [step, hthread]

/-- A step of a thread that is at no operation changes only that thread. -/
theorem step_quiet {pool : Pool I ι σ ρ L S} {i : ι}
    (hthread : ∀ o next, pool.threads i ≠ .busy (.op o next)) :
    (step body h pool i).shared = pool.shared ∧ (step body h pool i).log = pool.log := by
  rcases step_cases body h pool i with ⟨-, hshared, hlog⟩ | ⟨o, next, hop, -⟩
  · exact ⟨hshared, hlog⟩
  · exact absurd hop (hthread o next)

/-- A step of one thread leaves the others where they are. -/
theorem step_other {pool : Pool I ι σ ρ L S} {i j : ι} (hj : j ≠ i) :
    (step body h pool i).threads j = pool.threads j := by
  rw [step]
  split
  · rfl
  · exact Function.update_of_ne hj _ _
  · exact Function.update_of_ne hj _ _
  · exact Function.update_of_ne hj _ _

/-- A relation between the log and the shared state that each operation keeps, whatever thread performs
it and whatever its local environment is, holds in every reachable pool. -/
theorem shared_invariant (J : List (ι × Event I) → S → Prop)
    (hop : ∀ log s i o l, J log s →
      J (log ++ [(i, ⟨o, (h o (l, s)).1⟩)]) (h o (l, s)).2.2)
    {pool : Pool I ι σ ρ L S} (hpool : J pool.log pool.shared) (schedule : List ι) :
    J (run body h pool schedule).log (run body h pool schedule).shared := by
  refine run_invariant body h (fun pool => J pool.log pool.shared) ?_ hpool schedule
  intro pool i hJ
  rcases step_cases body h pool i with ⟨-, hshared, hlog⟩ | ⟨o, next, -, hstep⟩
  · rw [hshared, hlog]
    exact hJ
  · rw [hstep]
    exact hop _ _ _ _ _ hJ

/-- Each event of the log has `P` of the log before it. -/
def Throughout (P : List (ι × Event I) → Event I → Prop) (log : List (ι × Event I)) : Prop :=
  ∀ before i e after, log = before ++ (i, e) :: after → P before e

omit [DecidableEq ι] in
theorem Throughout.append {P : List (ι × Event I) → Event I → Prop} {log : List (ι × Event I)}
    (hlog : Throughout P log) {i : ι} {e : Event I} (he : P log e) : Throughout P (log ++ [(i, e)]) := by
  intro before j e' after hsplit
  rcases List.eq_nil_or_concat after with rfl | ⟨after', last, rfl⟩
  · obtain ⟨rfl, hlast⟩ := List.append_inj' hsplit rfl
    rw [List.singleton_inj, Prod.mk.injEq] at hlast
    rw [← hlast.2]
    exact he
  · rw [List.concat_eq_append, ← List.cons_append, ← List.append_assoc] at hsplit
    obtain ⟨hsplit, -⟩ := List.append_inj' hsplit rfl
    exact hlog before j e' after' hsplit

/-- A relation of the log to the shared state that every operation keeps, and what it says of each event. -/
theorem throughout_run (J : List (ι × Event I) → S → Prop) (P : List (ι × Event I) → Event I → Prop)
    (hop : ∀ log s i o l, J log s → J (log ++ [(i, ⟨o, (h o (l, s)).1⟩)]) (h o (l, s)).2.2)
    (hevent : ∀ log s o l, J log s → P log ⟨o, (h o (l, s)).1⟩)
    {begins : ι → σ} {locals : ι → L} {shared : S} (hstart : J [] shared) (schedule : List ι) :
    Throughout P (run body h (start body begins locals shared) schedule).log := by
  refine (shared_invariant body h (fun log s => J log s ∧ Throughout P log) ?_ ⟨hstart, ?_⟩ schedule).2
  · rintro log s i o l ⟨hJ, hlog⟩
    exact ⟨hop log s i o l hJ, hlog.append (hevent log s o l hJ)⟩
  · intro before i e after hlog
    exact absurd hlog.symm (List.append_ne_nil_of_right_ne_nil _ (List.cons_ne_nil _ _))

end Steps

variable {body : Loop I σ ρ} {h : Handler I (L × S)}

/-! ### The run of one thread -/

/-- Where a thread stands after performing `t` from loop state `s`. -/
inductive Stands (body : Loop I σ ρ) : σ → List (Event I) → Thread I σ ρ → Prop where
  | inside {s : σ} {t : List (Event I)} {p : Proc I (σ ⊕ ρ)} (hreach : (body s).Reach t p) :
      Stands body s t (.busy p)
  | left {s : σ} {t : List (Event I)} {r : ρ} (hlast : (body s).Path t (.inr r)) :
      Stands body s t (.done r)
  | later {s s' : σ} {t t' : List (Event I)} {th : Thread I σ ρ} (hturn : (body s).Path t (.inl s'))
      (hrest : Stands body s' t' th) : Stands body s (t ++ t') th

theorem Stands.path {s : σ} {t : List (Event I)} {r : ρ} (hstands : Stands body s t (.done r)) :
    Loop.Path body s t r := by
  generalize hth : Thread.done r = th at hstands
  induction hstands with
  | inside hreach => cases hth
  | left hlast =>
      cases hth
      exact .stop hlast
  | later hturn _ ih => exact .turn hturn (ih hth)

theorem Stands.inTurn {s : σ} {t : List (Event I)} {p : Proc I (σ ⊕ ρ)} (hstands : Stands body s t (.busy p)) :
    ∃ t₁ t₂ s', t = t₁ ++ t₂ ∧ Loop.Arrives body s t₁ s' ∧ (body s').Reach t₂ p := by
  generalize hth : Thread.busy p = th at hstands
  induction hstands with
  | @inside s t q hreach =>
      cases hth
      exact ⟨[], t, s, rfl, .here s, hreach⟩
  | left hlast => cases hth
  | later hturn _ ih =>
      obtain ⟨t₁, t₂, s', rfl, harrives, hreach⟩ := ih hth
      exact ⟨_, t₂, s', (List.append_assoc _ _ _).symm, .turn hturn harrives, hreach⟩

theorem Stands.op {s : σ} {t : List (Event I)} {o : I.Op} {next : I.Ans o → Proc I (σ ⊕ ρ)}
    (hstands : Stands body s t (.busy (.op o next))) (ans : I.Ans o) :
    Stands body s (t ++ [⟨o, ans⟩]) (.busy (next ans)) := by
  generalize hth : Thread.busy (Proc.op o next) = th at hstands
  induction hstands with
  | inside hreach =>
      cases hth
      exact .inside (hreach.step ans)
  | left hlast => cases hth
  | later hturn _ ih =>
      rw [List.append_assoc]
      exact .later hturn (ih hth)

theorem Stands.next {s s' : σ} {t : List (Event I)}
    (hstands : Stands body s t (.busy (.ret (.inl s')))) : Stands body s t (.busy (body s')) := by
  generalize hth : Thread.busy (Proc.ret (Sum.inl s')) = th at hstands
  induction hstands with
  | inside hreach =>
      cases hth
      have hlater := Stands.later hreach.path (.inside (.refl (body s')))
      rwa [List.append_nil] at hlater
  | left hlast => cases hth
  | later hturn _ ih => exact .later hturn (ih hth)

theorem Stands.leave {s : σ} {t : List (Event I)} {r : ρ}
    (hstands : Stands body s t (.busy (.ret (.inr r)))) : Stands body s t (.done r) := by
  generalize hth : Thread.busy (Proc.ret (Sum.inr r)) = th at hstands
  induction hstands with
  | inside hreach =>
      cases hth
      exact .left hreach.path
  | left hlast => cases hth
  | later hturn _ ih => exact .later hturn (ih hth)

theorem eventsOf_append_self (log : List (ι × Event I)) (i : ι) (e : Event I) :
    eventsOf (log ++ [(i, e)]) i = eventsOf log i ++ [e] := by
  simp [eventsOf]

theorem eventsOf_append_other (log : List (ι × Event I)) {i j : ι} (e : Event I) (hne : j ≠ i) :
    eventsOf (log ++ [(j, e)]) i = eventsOf log i := by
  simp [eventsOf, hne]

theorem step_eventsOf_other {pool : Pool I ι σ ρ L S} {i j : ι} (hj : j ≠ i) :
    eventsOf (step body h pool i).log j = eventsOf pool.log j := by
  rcases step_cases body h pool i with ⟨-, -, hlog⟩ | ⟨o, next, -, hstep⟩
  · rw [hlog]
  · rw [hstep, eventsOf_append_other _ _ (Ne.symm hj)]

/-- What a thread performed falls into turns of its loop, the last one possibly unfinished; a property of
the loop state that turns keep holds at the start of each. -/
theorem Stands.turns {P : σ → Prop} (hnext : ∀ s t s', P s → (body s).Path t (.inl s') → P s') {s : σ}
    {t : List (Event I)} {th : Thread I σ ρ} (hs : P s) (hstands : Stands body s t th) :
    ∃ turns : List (List (Event I)), t = turns.flatten ∧
      ∀ turn ∈ turns, ∃ s q, P s ∧ (body s).Reach turn q := by
  induction hstands with
  | @inside s t p hreach => exact ⟨[t], by simp, by simpa using ⟨s, hs, p, hreach⟩⟩
  | @left s t r hlast => exact ⟨[t], by simp, by simpa using ⟨s, hs, _, hlast.reach⟩⟩
  | @later s s' t t' th hturn _ ih =>
      obtain ⟨turns, rfl, hturns⟩ := ih (hnext s t s' hs hturn)
      refine ⟨t :: turns, by simp, ?_⟩
      intro turn hmem
      rcases List.mem_cons.mp hmem with rfl | hmem
      · exact ⟨s, _, hs, hturn.reach⟩
      · exact hturns turn hmem

/-- Each thread stands where its own events took it; a step keeps that. -/
theorem stands_step {begins : ι → σ} {pool : Pool I ι σ ρ L S}
    (hpool : ∀ i, Stands body (begins i) (eventsOf pool.log i) (pool.threads i)) (j i : ι) :
    Stands body (begins i) (eventsOf (step body h pool j).log i) ((step body h pool j).threads i) := by
  have hi := hpool i
  have hj := hpool j
  rw [step]
  split
  · exact hi
  · next r hthread =>
      by_cases heq : i = j
      · subst heq
        rw [hthread] at hi
        simpa using hi.leave
      · simpa [heq] using hi
  · next s hthread =>
      by_cases heq : i = j
      · subst heq
        rw [hthread] at hi
        simpa using hi.next
      · simpa [heq] using hi
  · next o next hthread =>
      by_cases heq : i = j
      · subst heq
        rw [hthread] at hi
        simpa [eventsOf_append_self] using hi.op _
      · simpa [heq, eventsOf_append_other _ _ (Ne.symm heq)] using hi

variable (body h) in
theorem thread_stands (begins : ι → σ) (locals : ι → L) (shared : S) (schedule : List ι) (i : ι) :
    Stands body (begins i) (eventsOf (run body h (start body begins locals shared) schedule).log i)
      ((run body h (start body begins locals shared) schedule).threads i) :=
  run_invariant body h (fun pool => ∀ i, Stands body (begins i) (eventsOf pool.log i) (pool.threads i))
    (fun _ j hpool i => stands_step hpool j i) (fun _ => .inside (.refl _)) schedule i

theorem mem_eventsOf {log : List (ι × Event I)} {i : ι} {e : Event I} :
    e ∈ eventsOf log i ↔ (i, e) ∈ log := by
  simp [eventsOf]

/-- Every event of a run belongs to a turn of its thread, all of whose events are in the log. -/
theorem turn_of_mem {P : ι → σ → Prop} (hnext : ∀ i s t s', P i s → (body s).Path t (.inl s') → P i s')
    {begins : ι → σ} (hbegin : ∀ i, P i (begins i)) {locals : ι → L} {shared : S} {schedule : List ι} {i : ι}
    {e : Event I} (he : (i, e) ∈ (run body h (start body begins locals shared) schedule).log) :
    ∃ turn s q, P i s ∧ (body s).Reach turn q ∧ e ∈ turn ∧
      ∀ e' ∈ turn, (i, e') ∈ (run body h (start body begins locals shared) schedule).log := by
  obtain ⟨turns, hevents, hturns⟩ :=
    (thread_stands body h begins locals shared schedule i).turns (hnext i) (hbegin i)
  have hmem : e ∈ turns.flatten := by
    rw [← hevents]
    exact mem_eventsOf.mpr he
  obtain ⟨turn, hturn, heturn⟩ := List.mem_flatten.mp hmem
  obtain ⟨s, q, hs, hreach⟩ := hturns turn hturn
  refine ⟨turn, s, q, hs, hreach, heturn, ?_⟩
  intro e' he'
  rw [← mem_eventsOf, hevents]
  exact List.mem_flatten.mpr ⟨turn, hturn, he'⟩

/-- Thread `i`, which began in loop state `begins`, is in a turn that started in loop state `s`. -/
def InTurn (body : Loop I σ ρ) (begins : σ) (pool : Pool I ι σ ρ L S) (i : ι) (s : σ) : Prop :=
  ∃ t₁ t₂ p, pool.threads i = .busy p ∧ eventsOf pool.log i = t₁ ++ t₂ ∧
    Loop.Arrives body begins t₁ s ∧ (body s).Reach t₂ p

/-! ### Operations with a precondition -/

/-- A precondition `G` of operations on the thread's history, kept by longer histories: if every turn from a
state with the invariant `J` performs only operations that meet it, so does the thread. -/
theorem Stands.guard {J : σ → List (Event I) → Prop} {G : List (Event I) → I.Op → Prop}
    (hmono : ∀ t t' o, G t o → G (t ++ t') o) (huses : ∀ s t, J s t → (body s).Uses (G t))
    (hnext : ∀ s t t' s', J s t → (body s).Path t' (.inl s') → J s' (t ++ t')) {s : σ}
    {t₀ t : List (Event I)} {o : I.Op} {next : I.Ans o → Proc I (σ ⊕ ρ)} (hJ : J s t₀)
    (hstands : Stands body s t (.busy (.op o next))) : G (t₀ ++ t) o := by
  generalize hth : Thread.busy (Proc.op o next) = th at hstands
  induction hstands generalizing t₀ with
  | inside hreach =>
      cases hth
      exact hmono _ _ _ ((Proc.Within.reach (huses _ _ hJ) hreach).2.1)
  | left hlast => cases hth
  | later hturn _ ih =>
      rw [← List.append_assoc]
      exact ih (hnext _ _ _ _ hJ hturn) hth

/-- Like `shared_invariant`, for a relation that only operations meeting their precondition keep. -/
theorem guarded_invariant {J : σ → List (Event I) → Prop} {G : List (Event I) → I.Op → Prop}
    (hmono : ∀ t t' o, G t o → G (t ++ t') o) (huses : ∀ s t, J s t → (body s).Uses (G t))
    (hnext : ∀ s t t' s', J s t → (body s).Path t' (.inl s') → J s' (t ++ t')) {begins : ι → σ}
    (hbegin : ∀ i, J (begins i) []) (K : List (ι × Event I) → S → Prop)
    (hop : ∀ log s i o l, G (eventsOf log i) o → K log s →
      K (log ++ [(i, ⟨o, (h o (l, s)).1⟩)]) (h o (l, s)).2.2)
    {locals : ι → L} {shared : S} (hstart : K [] shared) (schedule : List ι) :
    K (run body h (start body begins locals shared) schedule).log
      (run body h (start body begins locals shared) schedule).shared := by
  refine (run_invariant body h (fun pool => (∀ i, Stands body (begins i) (eventsOf pool.log i)
    (pool.threads i)) ∧ K pool.log pool.shared) ?_ ⟨fun _ => .inside (.refl _), hstart⟩ schedule).2
  rintro pool i ⟨hstands, hK⟩
  refine ⟨stands_step hstands i, ?_⟩
  rcases step_cases body h pool i with ⟨-, hshared, hlog⟩ | ⟨o, next, hthread, hstep⟩
  · rw [hshared, hlog]
    exact hK
  · have hi := hstands i
    rw [hthread] at hi
    have hG : G (eventsOf pool.log i) o := hi.guard hmono huses hnext (hbegin i)
    rw [hstep]
    exact hop _ _ _ _ _ hG hK

/-! ### Measures of a log -/

/-- A measure of traces that adds up along a run is the sum of the threads' measures. -/
theorem measure_eq_sum [Fintype ι] {F : List (Event I) → Nat} (hnil : F [] = 0)
    (happend : ∀ t t', F (t ++ t') = F t + F t') (log : List (ι × Event I)) :
    F (log.map Prod.snd) = ∑ i, F (eventsOf log i) := by
  induction log with
  | nil => simp [eventsOf, hnil]
  | cons entry log ih =>
      obtain ⟨j, e⟩ := entry
      have hcons : ∀ i, F (eventsOf ((j, e) :: log) i) = (if j = i then F [e] else 0) + F (eventsOf log i) := by
        intro i
        by_cases hj : j = i
        · rw [if_pos hj, ← happend]
          simp [eventsOf, hj]
        · rw [if_neg hj, Nat.zero_add]
          simp [eventsOf, hj]
      calc F (((j, e) :: log).map Prod.snd) = F [e] + F (log.map Prod.snd) := happend [e] _
        _ = F [e] + ∑ i, F (eventsOf log i) := by rw [ih]
        _ = ∑ i, ((if j = i then F [e] else 0) + F (eventsOf log i)) := by
            rw [Finset.sum_add_distrib, Finset.sum_ite_eq, if_pos (Finset.mem_univ j)]
        _ = ∑ i, F (eventsOf ((j, e) :: log) i) := by simp only [hcons]

/-- A finished thread has performed a whole path of its loop. -/
theorem thread_path {begins : ι → σ} {locals : ι → L} {shared : S} {schedule : List ι} {i : ι} {r : ρ}
    (hdone : (run body h (start body begins locals shared) schedule).threads i = .done r) :
    Loop.Path body (begins i)
      (eventsOf (run body h (start body begins locals shared) schedule).log i) r := by
  have hstands := thread_stands body h begins locals shared schedule i
  rw [hdone] at hstands
  exact hstands.path

/-! ### What the steps of one thread do -/

section Own

variable (body : Loop I σ ρ) (h : Handler I (L × S))

theorem run_concat (pool : Pool I ι σ ρ L S) (schedule : List ι) (i : ι) :
    run body h pool (schedule ++ [i]) = step body h (run body h pool schedule) i :=
  List.foldl_concat _ _ _ _

/-- No step of thread `i` changes what `f` reads of the shared state. -/
def OwnStepsKeep {α : Type} (pool : Pool I ι σ ρ L S) (schedule : List ι) (i : ι) (f : S → α) : Prop :=
  ∀ s₁ s₂, schedule = s₁ ++ i :: s₂ →
    f (run body h pool (s₁ ++ [i])).shared = f (run body h pool s₁).shared

theorem step_log_extends (pool : Pool I ι σ ρ L S) (i : ι) : pool.log <+: (step body h pool i).log := by
  rcases step_cases body h pool i with ⟨-, -, hlog⟩ | ⟨o, next, -, hstep⟩
  · rw [hlog]
  · rw [hstep]
    exact List.prefix_append _ _

theorem run_log_extends (pool : Pool I ι σ ρ L S) (schedule : List ι) :
    pool.log <+: (run body h pool schedule).log :=
  run_invariant body h (fun pool' => pool.log <+: pool'.log)
    (fun pool' i hextends => hextends.trans (step_log_extends body h pool' i)) (List.prefix_refl _) schedule

/-- Every event of a run was performed in a step of its thread. -/
theorem run_split {pool : Pool I ι σ ρ L S} (hempty : pool.log = []) {schedule : List ι} {i : ι} {e : Event I}
    (hmem : (i, e) ∈ (run body h pool schedule).log) :
    ∃ s₁ s₂ o next, schedule = s₁ ++ i :: s₂ ∧ (run body h pool s₁).threads i = .busy (.op o next) ∧
      e = ⟨o, (h o ((run body h pool s₁).locals i, (run body h pool s₁).shared)).1⟩ := by
  induction schedule using List.reverseRecOn with
  | nil =>
      rw [run, List.foldl_nil, hempty] at hmem
      cases hmem
  | append_singleton schedule j ih =>
      have hearlier : (i, e) ∈ (run body h pool schedule).log → ∃ s₁ s₂ o next,
          schedule ++ [j] = s₁ ++ i :: s₂ ∧ (run body h pool s₁).threads i = .busy (.op o next) ∧
            e = ⟨o, (h o ((run body h pool s₁).locals i, (run body h pool s₁).shared)).1⟩ := by
        intro hbefore
        obtain ⟨s₁, s₂, o, next, rfl, hthread, he⟩ := ih hbefore
        exact ⟨s₁, s₂ ++ [j], o, next, List.append_assoc _ _ _, hthread, he⟩
      rw [run_concat] at hmem
      rcases step_cases body h (run body h pool schedule) j with ⟨-, -, hlog⟩ | ⟨o, next, hthread, hstep⟩
      · rw [hlog] at hmem
        exact hearlier hmem
      · rw [hstep] at hmem
        rcases List.mem_append.mp hmem with hbefore | hlast
        · exact hearlier hbefore
        · obtain ⟨rfl, rfl⟩ := Prod.mk.inj (List.mem_singleton.mp hlast)
          exact ⟨schedule, [], o, next, rfl, hthread, rfl⟩

variable {α : Type} {pool : Pool I ι σ ρ L S} {schedule : List ι} {i : ι} {f : S → α}

/-- A thread all of whose events leave the shared state alone. -/
theorem ownStepsKeep_of_events
    (hevents : ∀ e ∈ eventsOf (run body h pool schedule).log i, ∀ l s,
      e = ⟨e.op, (h e.op (l, s)).1⟩ → f (h e.op (l, s)).2.2 = f s) :
    OwnStepsKeep body h pool schedule i f := by
  rintro s₁ s₂ rfl
  have hextends : (run body h pool (s₁ ++ [i])).log <+: (run body h pool (s₁ ++ i :: s₂)).log := by
    have happend : s₁ ++ i :: s₂ = (s₁ ++ [i]) ++ s₂ := by rw [List.append_assoc]; rfl
    rw [happend, run_append body h pool (s₁ ++ [i])]
    exact run_log_extends body h _ _
  rw [run_concat] at hextends ⊢
  rcases step_cases body h (run body h pool s₁) i with ⟨-, hshared, -⟩ | ⟨o, next, hthread, hstep⟩
  · rw [hshared]
  · rw [hstep] at hextends ⊢
    exact hevents _ (mem_eventsOf.mpr (hextends.subset (List.mem_append_right _ (List.mem_singleton.mpr rfl))))
      _ _ rfl

/-- A thread with an event that changes the shared state. -/
theorem not_ownStepsKeep_of_event (hempty : pool.log = []) {e : Event I}
    (hmem : e ∈ eventsOf (run body h pool schedule).log i)
    (hevent : ∀ l s, e = ⟨e.op, (h e.op (l, s)).1⟩ → f (h e.op (l, s)).2.2 ≠ f s) :
    ¬ OwnStepsKeep body h pool schedule i f := by
  intro hkeep
  obtain ⟨s₁, s₂, o, next, hschedule, hthread, rfl⟩ := run_split body h hempty (mem_eventsOf.mp hmem)
  refine hevent _ _ rfl ?_
  have hsame := hkeep s₁ s₂ hschedule
  rw [run_concat, step_op body h hthread] at hsame
  exact hsame

/-- A thread left alone comes to the end of its turn. -/
theorem exists_turn_end {p : Proc I (σ ⊕ ρ)} {pool : Pool I ι σ ρ L S} {i : ι}
    (hthread : pool.threads i = .busy p) :
    ∃ schedule t x, p.Path t x ∧ (run body h pool schedule).threads i = .busy (.ret x) := by
  induction p generalizing pool with
  | ret x => exact ⟨[], [], x, .ret x, hthread⟩
  | op o next ih =>
      have hstep : (step body h pool i).threads i = .busy (next (h o (pool.locals i, pool.shared)).1) := by
        rw [step_op body h hthread]
        exact Function.update_self _ _ _
      obtain ⟨schedule, t, x, hpath, hend⟩ := ih _ hstep
      exact ⟨i :: schedule, _ :: t, x, .op hpath, hend⟩

end Own

end Pool

end PulseLink
