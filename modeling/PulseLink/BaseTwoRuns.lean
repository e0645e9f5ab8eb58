import PulseLink.BaseGate

/-! Two runs compared. Each run has answers of its own; a comparison says which state of a run is its own
business (kept by a monitor, so that the answers to private operations are fixed by it), which answers of the
others are allowed, and what of an event shows. Programs agree if, from private states that are near each other,
all their runs under allowed answers show the same, and end near each other with related values. The rules are
those of a relational program logic: return, operations in step, programs that show nothing, sequencing, loops.
Two pools whose threads cannot tell their local environments apart run alongside each other (`Alongside.gatedRun`). -/

namespace PulseLink

/-- How two runs are compared. -/
structure Comparison (I : Sig) (M V : Type) where
  own : Monitor I M
  near : M → M → Prop
  fair : Event I → Prop
  shown : Event I → Option V

variable {I : Sig} {M V : Type} (c : Comparison I M V)

namespace Comparison

/-- What a run shows. -/
def shows (t : List (Event I)) : List V := t.filterMap c.shown

theorem shows_append (t t' : List (Event I)) : c.shows (t ++ t') = c.shows t ++ c.shows t' :=
  List.filterMap_append

/-- A run with events `t` from private state `m` to `m₁`, under allowed answers. -/
structure Run (t : List (Event I)) (m m₁ : M) : Prop where
  accepts : c.own.Accepts m t m₁
  fair : ∀ e ∈ t, c.fair e

variable {c}

theorem Run.split {t t' : List (Event I)} {m m₂ : M} (hrun : c.Run (t ++ t') m m₂) :
    ∃ m₁, c.Run t m m₁ ∧ c.Run t' m₁ m₂ := by
  obtain ⟨m₁, hfirst, hsecond⟩ := hrun.accepts.split
  exact ⟨m₁, ⟨hfirst, fun e he => hrun.fair e (List.mem_append_left _ he)⟩,
    ⟨hsecond, fun e he => hrun.fair e (List.mem_append_right _ he)⟩⟩

variable (c) in
/-- Two runs that started near each other have shown the same and are near each other. -/
structure Matches (t t' : List (Event I)) (m₁ m₁' : M) : Prop where
  near : c.near m₁ m₁'
  shows : c.shows t = c.shows t'

theorem Matches.append {t u t' u' : List (Event I)} {m₁ m₁' m₂ m₂' : M} (hfirst : c.Matches t t' m₁ m₁')
    (hsecond : c.Matches u u' m₂ m₂') : c.Matches (t ++ u) (t' ++ u') m₂ m₂' := by
  refine ⟨hsecond.near, ?_⟩
  rw [shows_append, shows_append, hfirst.shows, hsecond.shows]

end Comparison

open Comparison

namespace Proc

variable {α α' β β' : Type} {Q : α → α' → Prop}

/-- All runs of `p` and `p'` match, and the values returned are related by `Q`. -/
def Agree (c : Comparison I M V) (Q : α → α' → Prop) (p : Proc I α) (p' : Proc I α') : Prop :=
  ∀ t t' value value' m m₁ m' m₁', p.Path t value → p'.Path t' value' → c.near m m' → c.Run t m m₁ →
    c.Run t' m' m₁' → c.Matches t t' m₁ m₁' ∧ Q value value'

variable {c}

theorem Agree.ret {value : α} {value' : α'} (hvalue : Q value value') :
    Agree c Q (.ret value : Proc I α) (.ret value') := by
  intro t t' v v' m m₁ m' m₁' hpath hpath' hnear hrun hrun'
  obtain ⟨rfl, rfl⟩ := path_ret_iff.mp hpath
  obtain ⟨rfl, rfl⟩ := path_ret_iff.mp hpath'
  cases hrun.accepts
  cases hrun'.accepts
  exact ⟨⟨hnear, rfl⟩, hvalue⟩

theorem Agree.bind {R : β → β' → Prop} {p : Proc I α} {p' : Proc I α'} {f : α → Proc I β} {f' : α' → Proc I β'}
    (hp : Agree c Q p p') (hf : ∀ value value', Q value value' → Agree c R (f value) (f' value')) :
    Agree c R (p >>= f) (p' >>= f') := by
  intro t t' v v' m m₂ m' m₂' hpath hpath' hnear hrun hrun'
  obtain ⟨t₁, mid, t₂, rfl, hpath₁, hpath₂⟩ := path_bind_iff.mp hpath
  obtain ⟨t₁', mid', t₂', rfl, hpath₁', hpath₂'⟩ := path_bind_iff.mp hpath'
  obtain ⟨m₁, hrun₁, hrun₂⟩ := hrun.split
  obtain ⟨m₁', hrun₁', hrun₂'⟩ := hrun'.split
  obtain ⟨hmatch₁, hmid⟩ := hp _ _ _ _ _ _ _ _ hpath₁ hpath₁' hnear hrun₁ hrun₁'
  obtain ⟨hmatch₂, hvalue⟩ := hf _ _ hmid _ _ _ _ _ _ _ _ hpath₂ hpath₂' hmatch₁.near hrun₂ hrun₂'
  exact ⟨hmatch₁.append hmatch₂, hvalue⟩

/-- Two operations in step. -/
theorem Agree.op {o o' : I.Op} {next : I.Ans o → Proc I α} {next' : I.Ans o' → Proc I α'}
    (hop : ∀ ans ans' m m₁ m' m₁', c.near m m' → c.fair ⟨o, ans⟩ → c.fair ⟨o', ans'⟩ →
      c.own m ⟨o, ans⟩ = some m₁ → c.own m' ⟨o', ans'⟩ = some m₁' →
      c.near m₁ m₁' ∧ c.shown ⟨o, ans⟩ = c.shown ⟨o', ans'⟩ ∧ Agree c Q (next ans) (next' ans')) :
    Agree c Q (.op o next) (.op o' next') := by
  intro t t' v v' m m₂ m' m₂' hpath hpath' hnear hrun hrun'
  obtain ⟨ans, u, rfl, hrest⟩ := path_op_iff.mp hpath
  obtain ⟨ans', u', rfl, hrest'⟩ := path_op_iff.mp hpath'
  obtain ⟨haccepts, hfair⟩ := hrun
  obtain ⟨haccepts', hfair'⟩ := hrun'
  cases haccepts with
  | @cons _ m₁ _ _ _ hmove htail =>
      cases haccepts' with
      | @cons _ m₁' _ _ _ hmove' htail' =>
          obtain ⟨hnear₁, hshown, hagree⟩ := hop ans ans' m m₁ m' m₁' hnear (hfair _ List.mem_cons_self)
            (hfair' _ List.mem_cons_self) hmove hmove'
          obtain ⟨hmatch, hvalue⟩ := hagree _ _ _ _ _ _ _ _ hrest hrest' hnear₁
            ⟨htail, fun e he => hfair e (List.mem_cons_of_mem _ he)⟩
            ⟨htail', fun e he => hfair' e (List.mem_cons_of_mem _ he)⟩
          refine ⟨⟨hmatch.near, ?_⟩, hvalue⟩
          have hhead : c.shows [⟨o, ans⟩] = c.shows [⟨o', ans'⟩] := by
            simp only [Comparison.shows, List.filterMap_cons, hshown, List.filterMap_nil]
          calc c.shows (⟨o, ans⟩ :: u)
            _ = c.shows [⟨o, ans⟩] ++ c.shows u := c.shows_append [⟨o, ans⟩] u
            _ = c.shows [⟨o', ans'⟩] ++ c.shows u' := by rw [hhead, hmatch.shows]
            _ = c.shows (⟨o', ans'⟩ :: u') := (c.shows_append [⟨o', ans'⟩] u').symm

variable (c) in
/-- An operation that shows nothing and leaves the private state alone. -/
def Hidden (o : I.Op) : Prop := ∀ ans, c.shown ⟨o, ans⟩ = none ∧ ∀ m, c.own m ⟨o, ans⟩ = some m

theorem hidden_run {t : List (Event I)} (ht : ∀ e ∈ t, Hidden c e.op) {m m₁ : M} (hrun : c.Run t m m₁) :
    m₁ = m ∧ c.shows t = [] := by
  have hshows : c.shows t = [] := List.filterMap_eq_nil_iff.mpr fun e he => (ht e he e.ans).1
  refine ⟨?_, hshows⟩
  obtain ⟨haccepts, -⟩ := hrun
  clear hshows
  induction haccepts with
  | nil m => rfl
  | @cons m m₁ m₂ e t hmove _ ih =>
      rw [(ht e List.mem_cons_self e.ans).2 m] at hmove
      cases hmove
      exact ih fun e' he' => ht e' (List.mem_cons_of_mem _ he')

/-- Programs that show nothing, each of which returns what is wanted. -/
theorem Agree.hidden {P : α → Prop} {P' : α' → Prop} {p : Proc I α} {p' : Proc I α'} (hp : p.Uses (Hidden c))
    (hp' : p'.Uses (Hidden c)) (hP : ∀ t value, p.Path t value → (∀ e ∈ t, c.fair e) → P value)
    (hP' : ∀ t value, p'.Path t value → (∀ e ∈ t, c.fair e) → P' value) :
    Agree c (fun value value' => P value ∧ P' value') p p' := by
  intro t t' v v' m m₁ m' m₁' hpath hpath' hnear hrun hrun'
  obtain ⟨rfl, hshows⟩ := hidden_run (hp.reach hpath.reach) hrun
  obtain ⟨rfl, hshows'⟩ := hidden_run (hp'.reach hpath'.reach) hrun'
  exact ⟨⟨hnear, hshows.trans hshows'.symm⟩, hP t v hpath hrun.fair, hP' t' v' hpath' hrun'.fair⟩

theorem Agree.mono {R : α → α' → Prop} (hQR : ∀ value value', Q value value' → R value value') {p : Proc I α}
    {p' : Proc I α'} (hp : Agree c Q p p') : Agree c R p p' := by
  intro t t' v v' m m₁ m' m₁' hpath hpath' hnear hrun hrun'
  obtain ⟨hmatch, hvalue⟩ := hp _ _ _ _ _ _ _ _ hpath hpath' hnear hrun hrun'
  exact ⟨hmatch, hQR _ _ hvalue⟩

end Proc

/-- Turns that both go on, in states related by `K`, or both leave, with results related by `E`. -/
inductive Turned {σ ρ : Type} (K : σ → σ → Prop) (E : ρ → ρ → Prop) : σ ⊕ ρ → σ ⊕ ρ → Prop where
  | on {s s' : σ} (hK : K s s') : Turned K E (.inl s) (.inl s')
  | out {r r' : ρ} (hE : E r r') : Turned K E (.inr r) (.inr r')

/-- The rule for loops: if turns from related states agree, so do whole runs. -/
theorem Loop.Path.agree {σ ρ : Type} {body body' : Loop I σ ρ} {K : σ → σ → Prop} {E : ρ → ρ → Prop}
    {c : Comparison I M V}
    (hturn : ∀ s s', K s s' → Proc.Agree c (Turned K E) (body s) (body' s')) {s s' : σ} {t t' : List (Event I)}
    {r r' : ρ} {m m₁ m' m₁' : M} (hpath : Loop.Path body s t r) (hpath' : Loop.Path body' s' t' r') (hK : K s s')
    (hnear : c.near m m') (hrun : c.Run t m m₁) (hrun' : c.Run t' m' m₁') : c.Matches t t' m₁ m₁' ∧ E r r' := by
  induction hpath generalizing s' t' m m' with
  | stop hlast =>
      cases hpath' with
      | stop hlast' =>
          obtain ⟨hmatch, hturned⟩ := hturn _ _ hK _ _ _ _ _ _ _ _ hlast hlast' hnear hrun hrun'
          cases hturned with
          | out hE => exact ⟨hmatch, hE⟩
      | turn hfirst' _ =>
          obtain ⟨_, hrun₁', -⟩ := hrun'.split
          obtain ⟨-, hturned⟩ := hturn _ _ hK _ _ _ _ _ _ _ _ hlast hfirst' hnear hrun hrun₁'
          cases hturned
  | turn hfirst _ ih =>
      obtain ⟨m₂, hrun₁, hrun₂⟩ := hrun.split
      cases hpath' with
      | stop hlast' =>
          obtain ⟨-, hturned⟩ := hturn _ _ hK _ _ _ _ _ _ _ _ hfirst hlast' hnear hrun₁ hrun'
          cases hturned
      | turn hfirst' hrest' =>
          obtain ⟨m₂', hrun₁', hrun₂'⟩ := hrun'.split
          obtain ⟨hmatch₁, hturned⟩ := hturn _ _ hK _ _ _ _ _ _ _ _ hfirst hfirst' hnear hrun₁ hrun₁'
          cases hturned with
          | on hK₁ =>
              obtain ⟨hmatch₂, hE⟩ := ih hrest' hK₁ hmatch₁.near hrun₂ hrun₂'
              exact ⟨hmatch₁.append hmatch₂, hE⟩

/-- The private state of a thread is `v` of its local environment: if what an operation does to it is what the
monitor makes of the view of the operation, the monitor has read all that the thread has performed. -/
theorem Pool.gated_private {J : Sig} {ι σ ρ L S : Type} [DecidableEq ι] {m : Monitor J M} {v : L → M}
    {view : Event I → Option (Event J)} {gate : Pool I ι σ ρ L S → ι → Bool} {body : Loop I σ ρ}
    {h : Handler I (L × S)}
    (hseen : ∀ o l s e, view ⟨o, (h o (l, s)).1⟩ = some e → m (v l) e = some (v (h o (l, s)).2.1))
    (hunseen : ∀ o l s, view ⟨o, (h o (l, s)).1⟩ = none → v (h o (l, s)).2.1 = v l) (begins : ι → σ)
    (locals : ι → L) (shared : S) (schedule : List ι) (i : ι) :
    m.Accepts (v (locals i))
      ((eventsOf (gatedRun gate body h (start body begins locals shared) schedule).log i).filterMap view)
      (v ((gatedRun gate body h (start body begins locals shared) schedule).locals i)) := by
  induction schedule using List.reverseRecOn with
  | nil => exact .nil _
  | append_singleton schedule j ih =>
      rw [gatedRun_concat, gatedStep]
      generalize gatedRun gate body h (start body begins locals shared) schedule = pool at ih ⊢
      split_ifs
      swap
      · exact ih
      rcases step_cases body h pool j with ⟨hlocals, -, hlog⟩ | ⟨o, next, -, hstep⟩
      · rw [hlocals, hlog]
        exact ih
      · rw [hstep]
        by_cases hj : j = i
        · subst hj
          simp only [eventsOf_append_self, Function.update_self, List.filterMap_append]
          cases hview : view ⟨o, (h o (pool.locals j, pool.shared)).1⟩ with
          | none =>
              rw [hunseen o _ _ hview, List.filterMap_cons_none hview]
              exact (List.append_nil _).symm ▸ ih
          | some e =>
              rw [List.filterMap_cons_some hview]
              exact ih.append (.cons (hseen o _ _ e hview) (.nil _))
        · simp only [eventsOf_append_other _ _ hj, Function.update_of_ne (Ne.symm hj)]
          exact ih

/-! ### Pools on other local environments -/

namespace Pool

variable {I : Sig} {ι σ ρ L S : Type} [DecidableEq ι]

/-- The pools differ in their local environments only, and those are related by `R`. -/
structure Alongside (R : L → L → Prop) (pool pool' : Pool I ι σ ρ L S) : Prop where
  threads : pool'.threads = pool.threads
  locals : ∀ i, R (pool.locals i) (pool'.locals i)
  shared : pool'.shared = pool.shared
  log : pool'.log = pool.log

/-- The handler answers alike and changes the shared state alike on related local environments, and keeps them
related. -/
def Respects (h : Handler I (L × S)) (R : L → L → Prop) : Prop :=
  ∀ o l l' s, R l l' → (h o (l', s)).1 = (h o (l, s)).1 ∧ (h o (l', s)).2.2 = (h o (l, s)).2.2 ∧
    R (h o (l, s)).2.1 (h o (l', s)).2.1

variable {R : L → L → Prop} {body : Loop I σ ρ} {h : Handler I (L × S)}

theorem Alongside.step (hrespects : Respects h R) {pool pool' : Pool I ι σ ρ L S} (halong : Alongside R pool pool')
    (i : ι) : Alongside R (step body h pool i) (step body h pool' i) := by
  obtain ⟨threads, locals, shared, log⟩ := pool
  obtain ⟨threads', locals', shared', log'⟩ := pool'
  obtain ⟨hthreads, hlocals, hshared, hlog⟩ := halong
  cases hthreads
  cases hshared
  cases hlog
  simp only [Pool.step]
  split
  · exact ⟨rfl, hlocals, rfl, rfl⟩
  · exact ⟨rfl, hlocals, rfl, rfl⟩
  · exact ⟨rfl, hlocals, rfl, rfl⟩
  · next o next hthread =>
      obtain ⟨hans, hnew, hR⟩ := hrespects o (locals i) (locals' i) shared (hlocals i)
      refine ⟨by simp only [hans], fun j => ?_, hnew, by simp only [hans]⟩
      by_cases hj : j = i
      · subst hj
        simpa using hR
      · simpa [hj] using hlocals j

/-- So they stay side by side along every schedule, if the gate does not look at the local environments. -/
theorem Alongside.gatedRun {gate : Pool I ι σ ρ L S → ι → Bool} (hrespects : Respects h R)
    (hgate : ∀ pool pool' i, Alongside R pool pool' → gate pool' i = gate pool i) {pool pool' : Pool I ι σ ρ L S}
    (halong : Alongside R pool pool') (schedule : List ι) :
    Alongside R (gatedRun gate body h pool schedule) (gatedRun gate body h pool' schedule) := by
  induction schedule generalizing pool pool' with
  | nil => exact halong
  | cons i rest ih =>
      refine ih ?_
      rw [gatedStep, gatedStep, hgate pool pool' i halong]
      split_ifs
      · exact halong.step hrespects i
      · exact halong

end Pool

end PulseLink
