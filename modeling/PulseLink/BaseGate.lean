import PulseLink.BaseMonitor

/-! Pools whose threads may have to wait. A gate says of each thread whether it may take a step in the pool as
it stands: a thread that has not been created may not, one that joins another may once that one has finished.
Every thread keeps to a monitor; what is proved about a gated pool is proved about the states of the monitors,
the log and the shared state, one operation at a time (`monitored`). A log cut anywhere is the log of an
earlier pool (`gatedRun_split`), so what holds of every reachable pool holds of every moment of a run. -/

namespace PulseLink

namespace Pool

variable {I : Sig} {ι σ ρ L S : Type} [DecidableEq ι]

section Steps

variable (gate : Pool I ι σ ρ L S → ι → Bool) (body : Loop I σ ρ) (h : Handler I (L × S))

/-- Thread `i` takes a step, if it may. -/
def gatedStep (pool : Pool I ι σ ρ L S) (i : ι) : Pool I ι σ ρ L S :=
  if gate pool i then step body h pool i else pool

def gatedRun (pool : Pool I ι σ ρ L S) (schedule : List ι) : Pool I ι σ ρ L S :=
  schedule.foldl (gatedStep gate body h) pool

theorem gatedRun_concat (pool : Pool I ι σ ρ L S) (schedule : List ι) (i : ι) :
    gatedRun gate body h pool (schedule ++ [i]) = gatedStep gate body h (gatedRun gate body h pool schedule) i :=
  List.foldl_concat _ _ _ _

/-- A gate that is always open. -/
theorem gatedRun_open (pool : Pool I ι σ ρ L S) (schedule : List ι) :
    gatedRun (fun _ _ => true) body h pool schedule = run body h pool schedule :=
  rfl

/-- What a gated step adds to the log: nothing, or the operation of a thread that may take a step. -/
theorem gatedStep_log (pool : Pool I ι σ ρ L S) (i : ι) :
    (gatedStep gate body h pool i).log = pool.log ∨
    ∃ o next, gate pool i = true ∧ pool.threads i = .busy (.op o next) ∧
      (gatedStep gate body h pool i).log = pool.log ++ [(i, ⟨o, (h o (pool.locals i, pool.shared)).1⟩)] := by
  rw [gatedStep]
  split_ifs with hgate
  · rcases step_cases body h pool i with ⟨-, -, hlog⟩ | ⟨o, next, hthread, hstep⟩
    · exact Or.inl hlog
    · exact Or.inr ⟨o, next, hgate, hthread, by rw [hstep]⟩
  · exact Or.inl rfl

/-- Every entry of a log was written in an earlier pool, whose log is what stands before it. -/
theorem gatedRun_split {pool : Pool I ι σ ρ L S} (hempty : pool.log = []) {schedule : List ι}
    {before after : List (ι × Event I)} {entry : ι × Event I}
    (hlog : (gatedRun gate body h pool schedule).log = before ++ entry :: after) :
    ∃ schedule' i o next, (gatedRun gate body h pool schedule').log = before ∧
      gate (gatedRun gate body h pool schedule') i = true ∧
      (gatedRun gate body h pool schedule').threads i = .busy (.op o next) ∧
      entry = (i, ⟨o, (h o ((gatedRun gate body h pool schedule').locals i,
        (gatedRun gate body h pool schedule').shared)).1⟩) := by
  induction schedule using List.reverseRecOn generalizing after with
  | nil =>
      rw [gatedRun, List.foldl_nil, hempty] at hlog
      simp at hlog
  | append_singleton schedule i ih =>
      rw [gatedRun_concat] at hlog
      rcases gatedStep_log gate body h (gatedRun gate body h pool schedule) i with
        hsame | ⟨o, next, hgate, hthread, hnew⟩
      · exact ih (hsame.symm.trans hlog)
      · rw [hnew] at hlog
        rcases List.eq_nil_or_concat' after with rfl | ⟨after', last, rfl⟩
        · obtain ⟨hbefore, hentry⟩ := List.append_inj' hlog rfl
          exact ⟨schedule, i, o, next, hbefore, hgate, hthread, (List.cons.inj hentry).1.symm⟩
        · rw [← List.cons_append, ← List.append_assoc] at hlog
          exact ih (List.append_inj' hlog rfl).1

/-- Each thread stands where its own events took it. -/
theorem gated_stands (begins : ι → σ) (locals : ι → L) (shared : S) (schedule : List ι) (i : ι) :
    Stands body (begins i) (eventsOf (gatedRun gate body h (start body begins locals shared) schedule).log i)
      ((gatedRun gate body h (start body begins locals shared) schedule).threads i) := by
  induction schedule using List.reverseRecOn generalizing i with
  | nil => exact .inside (.refl _)
  | append_singleton schedule j ih =>
      rw [gatedRun_concat, gatedStep]
      split_ifs
      · exact stands_step ih j i
      · exact ih i

end Steps

variable {gate : Pool I ι σ ρ L S → ι → Bool} {body : Loop I σ ρ} {h : Handler I (L × S)}

/-- A pool whose threads keep to the monitor `m`, with its state for each of them: the monitor has read what the
thread performed, the thread is where the state says, and `K` holds. -/
structure Monitored {M : Type} (m : Monitor I M) (J : σ → M → Prop) (E : ρ → M → Prop) (s₀ : ι → M)
    (K : (ι → M) → List (ι × Event I) → S → Prop) (pool : Pool I ι σ ρ L S) (st : ι → M) : Prop where
  accepts : ∀ i, m.Accepts (s₀ i) (eventsOf pool.log i) (st i)
  tracks : ∀ i, m.Tracks J E (st i) (pool.threads i)
  holds : K st pool.log pool.shared

section Monitors

variable {M : Type} {m : Monitor I M} {J : σ → M → Prop} {E : ρ → M → Prop} {s₀ : ι → M}
  {K : (ι → M) → List (ι × Event I) → S → Prop}

/-- An operation that the monitor of its thread allows. -/
theorem Monitored.op {pool : Pool I ι σ ρ L S} {st : ι → M} (hpool : Monitored m J E s₀ K pool st) {i : ι}
    {o : I.Op}
    {next : I.Ans o → Proc I (σ ⊕ ρ)} (hthread : pool.threads i = .busy (.op o next)) :
    ∃ s', m (st i) ⟨o, (h o (pool.locals i, pool.shared)).1⟩ = some s' ∧
      (next (h o (pool.locals i, pool.shared)).1).Follows m (Monitor.Turned J E) s' := by
  have htracks := hpool.tracks i
  rw [hthread] at htracks
  exact htracks _

/-- Thread `i` gets to where state `s'` says. -/
theorem tracks_update {st : ι → M} {threads : ι → Thread I σ ρ} (htracks : ∀ j, m.Tracks J E (st j) (threads j))
    {i : ι} {s' : M} {th : Thread I σ ρ} (hth : m.Tracks J E s' th) (j : ι) :
    m.Tracks J E (Function.update st i s' j) (Function.update threads i th j) := by
  by_cases hj : j = i
  · subst hj
    rwa [Function.update_self, Function.update_self]
  · rw [Function.update_of_ne hj, Function.update_of_ne hj]
    exact htracks j

/-- A step without an operation. -/
theorem Monitored.turn {pool : Pool I ι σ ρ L S} {st : ι → M} (hpool : Monitored m J E s₀ K pool st) {i : ι}
    {th : Thread I σ ρ} (hth : m.Tracks J E (st i) th) :
    Monitored m J E s₀ K { pool with threads := Function.update pool.threads i th } st := by
  refine ⟨hpool.accepts, fun j => ?_, hpool.holds⟩
  have hj := tracks_update hpool.tracks (i := i) hth j
  rwa [Function.update_eq_self] at hj

/-- The rule for gated pools: what one allowed operation keeps holds in every reachable pool. -/
theorem monitored (hturn : ∀ a s, J a s → (body a).Follows m (Monitor.Turned J E) s) {begins : ι → σ}
    {locals : ι → L} {shared : S} (hbegin : ∀ i, J (begins i) (s₀ i)) (hstart : K s₀ [] shared)
    (hop : ∀ pool st i o next s', Monitored m J E s₀ K pool st → gate pool i = true →
      pool.threads i = .busy (.op o next) → m (st i) ⟨o, (h o (pool.locals i, pool.shared)).1⟩ = some s' →
      K (Function.update st i s') (pool.log ++ [(i, ⟨o, (h o (pool.locals i, pool.shared)).1⟩)])
        (h o (pool.locals i, pool.shared)).2.2) (schedule : List ι) :
    ∃ st, Monitored m J E s₀ K (gatedRun gate body h (start body begins locals shared) schedule) st := by
  induction schedule using List.reverseRecOn with
  | nil => exact ⟨s₀, fun i => .nil _, fun i => hturn _ _ (hbegin i), hstart⟩
  | append_singleton schedule i ih =>
      obtain ⟨st, hpool⟩ := ih
      rw [gatedRun_concat, gatedStep]
      generalize gatedRun gate body h (start body begins locals shared) schedule = pool at hpool
      split_ifs with hgate
      swap
      · exact ⟨st, hpool⟩
      have htracks := hpool.tracks i
      rw [step]
      split
      · exact ⟨st, hpool⟩
      · next r hthread =>
          rw [hthread] at htracks
          exact ⟨st, hpool.turn htracks⟩
      · next a hthread =>
          rw [hthread] at htracks
          exact ⟨st, hpool.turn (hturn a _ htracks)⟩
      · next o next hthread =>
          obtain ⟨s', hmove, hnext⟩ := hpool.op (h := h) hthread
          refine ⟨Function.update st i s', fun j => ?_, tracks_update hpool.tracks hnext,
            hop pool st i o next s' hpool hgate hthread hmove⟩
          by_cases hj : j = i
          · subst hj
            rw [Function.update_self, eventsOf_append_self]
            exact (hpool.accepts j).append (.cons hmove (.nil s'))
          · rw [Function.update_of_ne hj, eventsOf_append_other _ _ (Ne.symm hj)]
            exact hpool.accepts j

end Monitors

end Pool

/-- A sum over values of which one changes. -/
theorem sum_update_add {α κ : Type} [DecidableEq κ] {s : Finset κ} {k : κ} (hk : k ∈ s) (g : α → Nat) (f : κ → α)
    (v : α) : ∑ x ∈ s, g (Function.update f k v x) + g (f k) = ∑ x ∈ s, g (f x) + g v := by
  have hrest : ∑ x ∈ s.erase k, g (Function.update f k v x) = ∑ x ∈ s.erase k, g (f x) :=
    Finset.sum_congr rfl fun x hx => by rw [Function.update_of_ne (Finset.ne_of_mem_erase hx)]
  rw [← Finset.add_sum_erase s _ hk, ← Finset.add_sum_erase s (fun x => g (f x)) hk, hrest, Function.update_self]
  omega

end PulseLink
