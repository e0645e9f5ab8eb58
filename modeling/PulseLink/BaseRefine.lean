import PulseLink.BaseLayer
import PulseLink.BasePool

/-! Runs of a layer. Threads that run a program on the lower level show a run of the program on the upper level,
where every loop is one operation with the answer it came to. The operation takes its place where the loop returns,
or at the call by which it is seen. What the environment of the upper level will answer may be part of its state, so
that the run is found backwards, from its last state to a first one. -/

namespace PulseLink

/-- What is said of the loops of a layer: which operations they perform, an invariant of their state, and how they
may be answered; and what is seen of the events of the two levels in the order of the whole run. -/
structure LoopSpec (I J : Sig) (κ β : Type) where
  calls : I.Op → J.Op → Prop
  state : I.Op → κ → Prop
  result : (o : I.Op) → I.Ans o → Prop
  seen : Event I → Option β
  seenBelow : Event J → Option β

namespace Layer

variable {I J : Sig} {κ σ ρ ι L S T β : Type} [DecidableEq ι]

/-- The events `t` of the lower level are the operations `t'` of the upper one, each with its answer. -/
inductive Shows (layer : Layer I J κ) : List (Event J) → List (Event I) → Prop where
  | nil : Shows layer [] []
  | keep {o : I.Op} {t : List (Event J)} {t' : List (Event I)} (hbefore : Shows layer t t')
      (hkeeps : layer.loops o = false) (ans : J.Ans (layer.keep o)) :
      Shows layer (t ++ [⟨layer.keep o, ans⟩]) (t' ++ [⟨o, layer.answer o ans⟩])
  | loop {o : I.Op} {ans : I.Ans o} {t t₁ : List (Event J)} {t' : List (Event I)} (hbefore : Shows layer t t')
      (hloops : layer.loops o = true) (hpath : Loop.Path (layer.impl o) (layer.init o) t₁ ans) :
      Shows layer (t ++ t₁) (t' ++ [⟨o, ans⟩])

/-- The rest of a turn of the loop of `o` performs calls of which nothing is seen and goes on or comes to an answer
that is not seen either; or it ends right behind a call by which the operation is seen. -/
def Proceeds (spec : LoopSpec I J κ β) (o : I.Op) : Proc J (κ ⊕ I.Ans o) → Prop
  | .ret (.inl k) => spec.state o k
  | .ret (.inr ans) => spec.result o ans ∧ spec.seen ⟨o, ans⟩ = none
  | .op j next => spec.calls o j ∧
      ((∀ ans, spec.seenBelow ⟨j, ans⟩ = none ∧ Proceeds spec o (next ans)) ∨
        ∀ ans, ∃ r, next ans = .ret (.inr r) ∧ spec.result o r ∧ spec.seen ⟨o, r⟩ = spec.seenBelow ⟨j, ans⟩)

/-- Of an operation that is not seen, nothing is seen. -/
theorem Proceeds.of_within {spec : LoopSpec I J κ β} {o : I.Op} (hunseen : ∀ ans, spec.seen ⟨o, ans⟩ = none)
    (hcalls : ∀ j ans, spec.calls o j → spec.seenBelow ⟨j, ans⟩ = none) {p : Proc J (κ ⊕ I.Ans o)}
    (hp : p.Within (spec.calls o) (Sum.elim (spec.state o) (spec.result o))) : Proceeds spec o p := by
  induction p with
  | ret x =>
      cases x with
      | inl k => exact hp
      | inr ans => exact ⟨hp, hunseen ans⟩
  | op j next ih => exact ⟨hp.1, Or.inl fun ans => ⟨hcalls j ans hp.1, ih ans (hp.2 ans)⟩⟩

/-- What a refinement rests on, where `V` relates the states of the levels: every operation of the upper level can
have led to a state `s'` that shows what the lower level came to. -/
structure Backward (layer : Layer I J κ) (spec : LoopSpec I J κ β) (H : Handler I (L × S)) (h : Handler J (L × T))
    (V : S → T → Prop) : Prop where
  begins : ∀ o, layer.loops o = true → spec.state o (layer.init o)
  turn : ∀ o k, layer.loops o = true → spec.state o k → Proceeds spec o (layer.impl o k)
  /-- a call of a loop does nothing that the upper level has -/
  quiet : ∀ o j l t, layer.loops o = true → spec.calls o j →
    (h j (l, t)).2.1 = l ∧ ∀ s, V s (h j (l, t)).2.2 → V s t
  keep : ∀ o l t s', layer.loops o = false → V s' (h (layer.keep o) (l, t)).2.2 →
    ∃ s, V s t ∧ H o (l, s) = (layer.answer o (h (layer.keep o) (l, t)).1, (h (layer.keep o) (l, t)).2.1, s')
  loop : ∀ o ans l t s', layer.loops o = true → spec.result o ans → V s' t →
    ∃ s, V s t ∧ H o (l, s) = (ans, l, s')
  seenKeep : ∀ o ans, layer.loops o = false →
    spec.seen ⟨o, layer.answer o ans⟩ = spec.seenBelow ⟨layer.keep o, ans⟩

/-! ### Threads -/

/-- A thread of the lower level that performed `t`, and the thread of the upper level it shows, which performed
`t'`: the same program is left, or the lower one is inside a loop that the upper one is about to perform. -/
inductive Couples (layer : Layer I J κ) (spec : LoopSpec I J κ β) (body : Loop I σ ρ) :
    Thread J (LayerPc I κ σ ρ) ρ → List (Event J) → Thread I σ ρ → List (Event I) → Prop where
  | before {rest : Proc I (σ ⊕ ρ)} {t : List (Event J)} {t' : List (Event I)} (hshows : layer.Shows t t') :
      Couples layer spec body (.busy (layer.lower body (.before rest))) t (.busy rest) t'
  | between {rest : Proc I (σ ⊕ ρ)} {t : List (Event J)} {t' : List (Event I)} (hshows : layer.Shows t t') :
      Couples layer spec body (.busy (.ret (.inl (.before rest)))) t (.busy rest) t'
  | inside {o : I.Op} {next : I.Ans o → Proc I (σ ⊕ ρ)} {p : Proc J (κ ⊕ I.Ans o)} {t t₁ : List (Event J)}
      {t' : List (Event I)} (hshows : layer.Shows t t') (hloops : layer.loops o = true)
      (hstands : Pool.Stands (layer.impl o) (layer.init o) t₁ (.busy p)) (hp : Proceeds spec o p) :
      Couples layer spec body (.busy (p >>= fun x => .ret (.inl (resume o next x)))) (t ++ t₁)
        (.busy (.op o next)) t'
  | done {r : ρ} {t : List (Event J)} {t' : List (Event I)} (hshows : layer.Shows t t') :
      Couples layer spec body (.done r) t (.done r) t'

/-- The same, but for a loop at the end that is not done. -/
def ShowsSoFar (layer : Layer I J κ) (t : List (Event J)) (t' : List (Event I)) : Prop :=
  ∃ t₀ t₁, t = t₀ ++ t₁ ∧ layer.Shows t₀ t' ∧
    (t₁ = [] ∨ ∃ o p, layer.loops o = true ∧ Pool.Stands (layer.impl o) (layer.init o) t₁ (.busy p))

theorem Couples.showsSoFar {layer : Layer I J κ} {spec : LoopSpec I J κ β} {body : Loop I σ ρ}
    {th : Thread J (LayerPc I κ σ ρ) ρ} {t : List (Event J)} {uth : Thread I σ ρ} {t' : List (Event I)}
    (hcouples : layer.Couples spec body th t uth t') : layer.ShowsSoFar t t' := by
  cases hcouples with
  | before hshows => exact ⟨t, [], (List.append_nil t).symm, hshows, Or.inl rfl⟩
  | between hshows => exact ⟨t, [], (List.append_nil t).symm, hshows, Or.inl rfl⟩
  | inside hshows hloops hstands _ => exact ⟨_, _, rfl, hshows, Or.inr ⟨_, _, hloops, hstands⟩⟩
  | done hshows => exact ⟨t, [], (List.append_nil t).symm, hshows, Or.inl rfl⟩

/-- What is seen of a log. -/
def seenOf (seen : Event I → Option β) (log : List (ι × Event I)) : List (ι × β) :=
  log.filterMap fun entry => (seen entry.2).map fun x => (entry.1, x)

omit [DecidableEq ι] in
theorem seenOf_concat (seen : Event I → Option β) (log : List (ι × Event I)) (i : ι) (e : Event I) :
    seenOf seen (log ++ [(i, e)]) = seenOf seen log ++ ((seen e).map fun x => (i, x)).toList := by
  rw [seenOf, List.filterMap_append]
  cases hseen : seen e with
  | none => simp [hseen, seenOf]
  | some x => simp [hseen, seenOf]

/-- A pool of the upper level that a pool of the lower level shows. -/
structure Mirrors (layer : Layer I J κ) (spec : LoopSpec I J κ β) (body : Loop I σ ρ)
    (upper : Pool I ι σ ρ L S) (lower : Pool J ι (LayerPc I κ σ ρ) ρ L T) : Prop where
  locals : upper.locals = lower.locals
  couples : ∀ i, layer.Couples spec body (lower.threads i) (Pool.eventsOf lower.log i)
    (upper.threads i) (Pool.eventsOf upper.log i)
  seen : seenOf spec.seen upper.log = seenOf spec.seenBelow lower.log

/-! ### Steps -/

/-- Only thread `i` and its events differ. -/
def OnlyAt {I : Sig} {σ S : Type} (i : ι) (pool pool' : Pool I ι σ ρ L S) : Prop :=
  ∀ j, j ≠ i → pool'.threads j = pool.threads j ∧ Pool.eventsOf pool'.log j = Pool.eventsOf pool.log j

theorem onlyAt_step (body : Loop I σ ρ) (H : Handler I (L × S)) (pool : Pool I ι σ ρ L S) (i : ι) :
    OnlyAt i pool (pool.step body H i) :=
  fun _ hj => ⟨Pool.step_other body H hj, Pool.step_eventsOf_other hj⟩

/-- Thread `i` gets `ans` for its operation, and `l` for its local environment. -/
def answered (pool : Pool I ι σ ρ L S) (i : ι) (o : I.Op) (next : I.Ans o → Proc I (σ ⊕ ρ)) (ans : I.Ans o) (l : L) :
    Pool I ι σ ρ L S where
  threads := Function.update pool.threads i (.busy (next ans))
  locals := Function.update pool.locals i l
  shared := pool.shared
  log := pool.log ++ [(i, ⟨o, ans⟩)]

theorem answered_thread (pool : Pool I ι σ ρ L S) (i : ι) (o : I.Op) (next : I.Ans o → Proc I (σ ⊕ ρ))
    (ans : I.Ans o) (l : L) : (answered pool i o next ans l).threads i = .busy (next ans) :=
  Function.update_self _ _ _

theorem answered_events (pool : Pool I ι σ ρ L S) (i : ι) (o : I.Op) (next : I.Ans o → Proc I (σ ⊕ ρ))
    (ans : I.Ans o) (l : L) :
    Pool.eventsOf (answered pool i o next ans l).log i = Pool.eventsOf pool.log i ++ [⟨o, ans⟩] :=
  Pool.eventsOf_append_self _ _ _

theorem onlyAt_answered (pool : Pool I ι σ ρ L S) (i : ι) (o : I.Op) (next : I.Ans o → Proc I (σ ⊕ ρ))
    (ans : I.Ans o) (l : L) : OnlyAt i pool (answered pool i o next ans l) :=
  fun _ hj => ⟨Function.update_of_ne hj _ _, Pool.eventsOf_append_other _ _ (Ne.symm hj)⟩

section Steps

variable {layer : Layer I J κ} {spec : LoopSpec I J κ β} {body : Loop I σ ρ} {H : Handler I (L × S)}
  {h : Handler J (L × T)} {V : S → T → Prop} {upper upper' : Pool I ι σ ρ L S}
  {lower lower' : Pool J ι (LayerPc I κ σ ρ) ρ L T} {i : ι}

theorem Mirrors.move (hmirrors : layer.Mirrors spec body upper lower) (hupper : OnlyAt i upper upper')
    (hlower : OnlyAt i lower lower') (hlocals : upper'.locals = lower'.locals)
    (hcouple : layer.Couples spec body (lower'.threads i) (Pool.eventsOf lower'.log i) (upper'.threads i)
      (Pool.eventsOf upper'.log i))
    (hseen : seenOf spec.seen upper'.log = seenOf spec.seenBelow lower'.log) :
    layer.Mirrors spec body upper' lower' where
  locals := hlocals
  couples j := by
    by_cases hj : j = i
    · subst hj
      exact hcouple
    · obtain ⟨hthread, hevents⟩ := hupper j hj
      obtain ⟨hthread', hevents'⟩ := hlower j hj
      rw [hthread, hevents, hthread', hevents']
      exact hmirrors.couples j
  seen := hseen

/-- Where the upper level is to end in a state that shows `lower'`, it came from one that shows `lower`. -/
def Leads (body : Loop I σ ρ) (H : Handler I (L × S)) (V : S → T → Prop) (upper upper' : Pool I ι σ ρ L S)
    (shared shared' : T) : Prop :=
  ∀ s', V s' shared' → ∃ s schedule, V s shared ∧
    Pool.run body H { upper with shared := s } schedule = { upper' with shared := s' }

theorem Leads.refl {shared shared' : T} (hshared : ∀ s, V s shared' → V s shared) :
    Leads body H V upper upper shared shared' :=
  fun s' hs' => ⟨s', [], hshared s' hs', rfl⟩

theorem Leads.trans {upper'' : Pool I ι σ ρ L S} {shared shared' shared'' : T}
    (h₁ : Leads body H V upper upper' shared shared') (h₂ : Leads body H V upper' upper'' shared' shared'') :
    Leads body H V upper upper'' shared shared'' := by
  intro s'' hs''
  obtain ⟨s', schedule', hs', hrun'⟩ := h₂ s'' hs''
  obtain ⟨s, schedule, hs, hrun⟩ := h₁ s' hs'
  refine ⟨s, schedule ++ schedule', hs, ?_⟩
  rw [Pool.run_append, hrun, hrun']

/-- An operation that the upper level performs. -/
theorem Leads.op {o : I.Op} {next : I.Ans o → Proc I (σ ⊕ ρ)} {ans : I.Ans o} {l : L} {shared shared' : T}
    (hthread : upper.threads i = .busy (.op o next))
    (hstep : ∀ s', V s' shared' → ∃ s, V s shared ∧ H o (upper.locals i, s) = (ans, l, s')) :
    Leads body H V upper (answered upper i o next ans l) shared shared' := by
  intro s' hs'
  obtain ⟨s, hs, hop⟩ := hstep s' hs'
  refine ⟨s, [i], hs, ?_⟩
  have hthread' : ({ upper with shared := s } : Pool I ι σ ρ L S).threads i = .busy (.op o next) := hthread
  have hrun := Pool.step_op body H hthread'
  rw [hop] at hrun
  exact hrun

/-- A step of the upper level to the next turn. -/
theorem Leads.next {a : σ} {shared : T} (hthread : upper.threads i = .busy (.ret (.inl a))) :
    Leads body H V upper { upper with threads := Function.update upper.threads i (.busy (body a)) } shared shared := by
  intro s' hs'
  have hthread' : ({ upper with shared := s' } : Pool I ι σ ρ L S).threads i = .busy (.ret (.inl a)) := hthread
  exact ⟨s', [i], hs', Pool.step_next body H hthread'⟩

/-- A last step of the upper level. -/
theorem Leads.leave {r : ρ} {shared : T} (hthread : upper.threads i = .busy (.ret (.inr r))) :
    Leads body H V upper { upper with threads := Function.update upper.threads i (.done r) } shared shared := by
  intro s' hs'
  have hthread' : ({ upper with shared := s' } : Pool I ι σ ρ L S).threads i = .busy (.ret (.inr r)) := hthread
  exact ⟨s', [i], hs', Pool.step_leave body H hthread'⟩

/-- The thread of the lower level went to its next turn. -/
theorem Mirrors.turn {pc : LayerPc I κ σ ρ} (hmirrors : layer.Mirrors spec body upper lower)
    (hthread : lower.threads i = .busy (.ret (.inl pc))) (hupper : OnlyAt i upper upper')
    (hlocals : upper'.locals = upper.locals) (hseen : seenOf spec.seen upper'.log = seenOf spec.seen upper.log)
    (hcouple : layer.Couples spec body (.busy (layer.lower body pc)) (Pool.eventsOf lower.log i) (upper'.threads i)
      (Pool.eventsOf upper'.log i)) :
    layer.Mirrors spec body upper' (lower.step (layer.lower body) h i) ∧
      (lower.step (layer.lower body) h i).shared = lower.shared := by
  have hlower := onlyAt_step (layer.lower body) h lower i
  rw [Pool.step_next (layer.lower body) h hthread] at hlower ⊢
  refine ⟨hmirrors.move hupper hlower (hlocals.trans hmirrors.locals) ?_ (hseen.trans hmirrors.seen), rfl⟩
  simp only [Function.update_self]
  exact hcouple

/-- The thread of the lower level performed an operation. -/
theorem Mirrors.perform {j : J.Op} {next : J.Ans j → Proc J (LayerPc I κ σ ρ ⊕ ρ)}
    (hmirrors : layer.Mirrors spec body upper lower) (hthread : lower.threads i = .busy (.op j next))
    (hupper : OnlyAt i upper upper')
    (hlocals : upper'.locals = Function.update lower.locals i (h j (lower.locals i, lower.shared)).2.1)
    (hseen : seenOf spec.seen upper'.log = seenOf spec.seenBelow lower.log ++
      ((spec.seenBelow ⟨j, (h j (lower.locals i, lower.shared)).1⟩).map fun x => (i, x)).toList)
    (hcouple : layer.Couples spec body (.busy (next (h j (lower.locals i, lower.shared)).1))
      (Pool.eventsOf lower.log i ++ [⟨j, (h j (lower.locals i, lower.shared)).1⟩]) (upper'.threads i)
      (Pool.eventsOf upper'.log i)) :
    layer.Mirrors spec body upper' (lower.step (layer.lower body) h i) := by
  have hlower := onlyAt_step (layer.lower body) h lower i
  rw [Pool.step_op (layer.lower body) h hthread] at hlower ⊢
  refine hmirrors.move hupper hlower hlocals ?_ ?_
  · simp only [Function.update_self, Pool.eventsOf_append_self]
    exact hcouple
  · rw [seenOf_concat]
    exact hseen

theorem onlyAt_thread (pool : Pool I ι σ ρ L S) (i : ι) (th : Thread I σ ρ) :
    OnlyAt i pool { pool with threads := Function.update pool.threads i th } :=
  fun _ hj => ⟨Function.update_of_ne hj _ _, rfl⟩

/-- A step where the same program is left on both levels. -/
theorem step_before (hback : layer.Backward spec H h V) (hmirrors : layer.Mirrors spec body upper lower)
    {rest : Proc I (σ ⊕ ρ)} (hthread : lower.threads i = .busy (layer.lower body (.before rest)))
    (hupper : upper.threads i = .busy rest)
    (hshows : layer.Shows (Pool.eventsOf lower.log i) (Pool.eventsOf upper.log i)) :
    ∃ upper', layer.Mirrors spec body upper' (lower.step (layer.lower body) h i) ∧
      Leads body H V upper upper' lower.shared (lower.step (layer.lower body) h i).shared := by
  cases rest with
  | ret value =>
      cases value with
      | inl a =>
          have hcouple : layer.Couples spec body (.busy (layer.lower body (.before (body a))))
              (Pool.eventsOf lower.log i) (Function.update upper.threads i (.busy (body a)) i)
              (Pool.eventsOf upper.log i) := by
            rw [Function.update_self]
            exact .before hshows
          obtain ⟨hmirrors', hshared⟩ := hmirrors.turn hthread (onlyAt_thread upper i _) rfl rfl hcouple
          exact ⟨_, hmirrors', hshared ▸ .next hupper⟩
      | inr r =>
          have hlower := onlyAt_step (layer.lower body) h lower i
          rw [Pool.step_leave (layer.lower body) h hthread] at hlower ⊢
          refine ⟨_, hmirrors.move (onlyAt_thread upper i _) hlower hmirrors.locals ?_ hmirrors.seen, .leave hupper⟩
          simp only [Function.update_self]
          exact .done hshows
  | op o next =>
      cases hloops : layer.loops o with
      | true =>
          rw [lower_op_loop layer body hloops] at hthread
          have hcouple : layer.Couples spec body (.busy (layer.lower body (.inside o next (layer.init o))))
              (Pool.eventsOf lower.log i) (upper.threads i) (Pool.eventsOf upper.log i) := by
            rw [hupper, ← List.append_nil (Pool.eventsOf lower.log i)]
            exact .inside hshows hloops (.inside (.refl _)) (hback.turn o _ hloops (hback.begins o hloops))
          obtain ⟨hmirrors', hshared⟩ := hmirrors.turn hthread (fun _ _ => ⟨rfl, rfl⟩) rfl rfl hcouple
          exact ⟨upper, hmirrors', .refl (hshared ▸ fun _ hs => hs)⟩
      | false =>
          rw [lower_op_keep layer body hloops] at hthread
          have hshared : (lower.step (layer.lower body) h i).shared =
              (h (layer.keep o) (lower.locals i, lower.shared)).2.2 := by
            rw [Pool.step_op (layer.lower body) h hthread]
          refine ⟨answered upper i o next (layer.answer o (h (layer.keep o) (lower.locals i, lower.shared)).1)
            (h (layer.keep o) (lower.locals i, lower.shared)).2.1, ?_, ?_⟩
          · refine hmirrors.perform hthread (onlyAt_answered _ _ _ _ _ _) ?_ ?_ ?_
            · rw [← hmirrors.locals]
              rfl
            · rw [answered, seenOf_concat, hback.seenKeep o _ hloops, hmirrors.seen]
            · rw [answered_thread, answered_events]
              exact .between (hshows.keep hloops _)
          · rw [hshared]
            refine .op hupper ?_
            rw [hmirrors.locals]
            exact fun s' hs' => hback.keep o _ _ s' hloops hs'

/-- A step inside the loop of an operation. -/
theorem step_inside (hback : layer.Backward spec H h V) (hmirrors : layer.Mirrors spec body upper lower) {o : I.Op}
    {next : I.Ans o → Proc I (σ ⊕ ρ)} {p : Proc J (κ ⊕ I.Ans o)} {t t₁ : List (Event J)}
    (hthread : lower.threads i = .busy (p >>= fun x => .ret (.inl (resume o next x))))
    (hevents : Pool.eventsOf lower.log i = t ++ t₁) (hupper : upper.threads i = .busy (.op o next))
    (hshows : layer.Shows t (Pool.eventsOf upper.log i)) (hloops : layer.loops o = true)
    (hstands : Pool.Stands (layer.impl o) (layer.init o) t₁ (.busy p)) (hp : Proceeds spec o p) :
    ∃ upper', layer.Mirrors spec body upper' (lower.step (layer.lower body) h i) ∧
      Leads body H V upper upper' lower.shared (lower.step (layer.lower body) h i).shared := by
  cases p with
  | ret x =>
      cases x with
      | inl k =>
          have hcouple : layer.Couples spec body (.busy (layer.lower body (.inside o next k)))
              (Pool.eventsOf lower.log i) (upper.threads i) (Pool.eventsOf upper.log i) := by
            rw [hevents, hupper]
            exact .inside hshows hloops hstands.next (hback.turn o k hloops hp)
          obtain ⟨hmirrors', hshared⟩ := hmirrors.turn hthread (fun _ _ => ⟨rfl, rfl⟩) rfl rfl hcouple
          exact ⟨upper, hmirrors', .refl (hshared ▸ fun _ hs => hs)⟩
      | inr ans =>
          have hcouple : layer.Couples spec body (.busy (layer.lower body (.before (next ans))))
              (Pool.eventsOf lower.log i) ((answered upper i o next ans (upper.locals i)).threads i)
              (Pool.eventsOf (answered upper i o next ans (upper.locals i)).log i) := by
            rw [answered_thread, answered_events, hevents]
            exact .before (hshows.loop hloops hstands.leave.path)
          obtain ⟨hmirrors', hshared⟩ := hmirrors.turn hthread (onlyAt_answered upper i o next ans (upper.locals i))
            (Function.update_eq_self _ _) (by simp [answered, seenOf_concat, hp.2]) hcouple
          refine ⟨_, hmirrors', .op hupper ?_⟩
          rw [hshared]
          exact fun s' hs' => hback.loop o ans _ _ s' hloops hp.1 hs'
  | op j nx =>
      have hquiet := hback.quiet o j (lower.locals i) lower.shared hloops hp.1
      have hshared : (lower.step (layer.lower body) h i).shared = (h j (lower.locals i, lower.shared)).2.2 := by
        rw [Pool.step_op (layer.lower body) h hthread]
      rcases hp.2 with hcall | hlast
      · obtain ⟨hunseen, hnext⟩ := hcall (h j (lower.locals i, lower.shared)).1
        refine ⟨upper, hmirrors.perform hthread (fun _ _ => ⟨rfl, rfl⟩) ?_ ?_ ?_, .refl ?_⟩
        · rw [hquiet.1, Function.update_eq_self, hmirrors.locals]
        · simp [hunseen, hmirrors.seen]
        · rw [hevents, hupper, List.append_assoc]
          exact .inside hshows hloops (hstands.op _) hnext
        · rw [hshared]
          exact hquiet.2
      · -- the upper level performs the operation here, before the loop returns
        obtain ⟨r, hr, hresult, hseen⟩ := hlast (h j (lower.locals i, lower.shared)).1
        have hpath := hstands.op (h j (lower.locals i, lower.shared)).1
        rw [hr] at hpath
        refine ⟨answered upper i o next r (upper.locals i),
          hmirrors.perform hthread (onlyAt_answered _ _ _ _ _ _) ?_ ?_ ?_, .op hupper ?_⟩
        · rw [hquiet.1, Function.update_eq_self, ← hmirrors.locals]
          exact Function.update_eq_self _ _
        · rw [answered, seenOf_concat, hseen, hmirrors.seen]
        · rw [answered_thread, answered_events, hevents, hr, List.append_assoc]
          exact .between (hshows.loop hloops hpath.leave.path)
        · rw [hshared]
          exact fun s' hs' => hback.loop o r _ _ s' hloops hresult (hquiet.2 s' hs')

/-- The rule for one step: the upper level takes one as well, or none. -/
theorem mirrors_step (hback : layer.Backward spec H h V) (hmirrors : layer.Mirrors spec body upper lower) (i : ι) :
    ∃ upper', layer.Mirrors spec body upper' (lower.step (layer.lower body) h i) ∧
      Leads body H V upper upper' lower.shared (lower.step (layer.lower body) h i).shared := by
  have hcouple := hmirrors.couples i
  generalize hth : lower.threads i = th at hcouple
  generalize ht : Pool.eventsOf lower.log i = t at hcouple
  generalize huth : upper.threads i = uth at hcouple
  generalize ht' : Pool.eventsOf upper.log i = t' at hcouple
  cases hcouple with
  | @between rest _ _ hshows =>
      have hcouple : layer.Couples spec body (.busy (layer.lower body (.before rest)))
          (Pool.eventsOf lower.log i) (upper.threads i) (Pool.eventsOf upper.log i) := by
        rw [ht, huth, ht']
        exact .before hshows
      obtain ⟨hmirrors', hshared⟩ := hmirrors.turn hth (fun _ _ => ⟨rfl, rfl⟩) rfl rfl hcouple
      exact ⟨upper, hmirrors', .refl (hshared ▸ fun _ hs => hs)⟩
  | before hshows => exact step_before hback hmirrors hth huth (by rw [ht, ht']; exact hshows)
  | inside hshows hloops hstands hp =>
      exact step_inside hback hmirrors hth ht huth (by rw [ht']; exact hshows) hloops hstands hp
  | done hshows =>
      have hstep : lower.step (layer.lower body) h i = lower := by rw [Pool.step, hth]
      rw [hstep]
      exact ⟨upper, hmirrors, .refl fun _ hs => hs⟩

/-- **Refinement.** A run of the lower level shows a run of the upper level that ends in any state `s'` that shows
the state of the lower one: the threads are coupled, and what is seen has the same order. -/
theorem lower_refines (hback : layer.Backward spec H h V) (begins : ι → σ) (locals : ι → L) (shared : T)
    (schedule : List ι) {s' : S}
    (hs' : V s' (Pool.run (layer.lower body) h
      (.start (layer.lower body) (fun i => .before (body (begins i))) locals shared) schedule).shared) :
    ∃ s schedule', V s shared ∧ (Pool.run body H (.start body begins locals s) schedule').shared = s' ∧
      layer.Mirrors spec body (Pool.run body H (.start body begins locals s) schedule')
        (Pool.run (layer.lower body) h
          (.start (layer.lower body) (fun i => .before (body (begins i))) locals shared) schedule) := by
  have hstart : ∃ upper, layer.Mirrors spec body upper
        (.start (layer.lower body) (fun i => .before (body (begins i))) locals shared) ∧
      Leads body H V (.start body begins locals s') upper shared shared :=
    ⟨.start body begins locals s', ⟨rfl, fun _ => .before .nil, rfl⟩, .refl fun _ hs => hs⟩
  have hstep : ∀ (lower : Pool J ι (LayerPc I κ σ ρ) ρ L T) (i : ι),
      (∃ upper, layer.Mirrors spec body upper lower ∧
        Leads body H V (.start body begins locals s') upper shared lower.shared) →
      ∃ upper, layer.Mirrors spec body upper (lower.step (layer.lower body) h i) ∧
        Leads body H V (.start body begins locals s') upper shared (lower.step (layer.lower body) h i).shared := by
    rintro lower i ⟨upper, hmirrors, hleads⟩
    obtain ⟨upper', hmirrors', hleads'⟩ := mirrors_step hback hmirrors i
    exact ⟨upper', hmirrors', hleads.trans hleads'⟩
  obtain ⟨upper, hmirrors, hleads⟩ := Pool.run_invariant (layer.lower body) h _ hstep hstart schedule
  obtain ⟨s, schedule', hs, hrun⟩ := hleads s' hs'
  have hupper : Pool.run body H (.start body begins locals s) schedule' = { upper with shared := s' } := hrun
  refine ⟨s, schedule', hs, ?_⟩
  rw [hupper]
  exact ⟨rfl, hmirrors.locals, hmirrors.couples, hmirrors.seen⟩

end Steps

end Layer

end PulseLink
