import PulseLink.BaseProc

/-! Comparing two programs run alone against the same handler. Twins ask the same and return related
values; on related states a run of one gives a run of the other with the same events. A relation may also hold
only until a run of the first breaks it. `Alike` says of two loops that both end, with the same result, the same
visible operations and related states. It is proved turn by turn: two turns that show the same, or a turn of the
second side that shows nothing. -/

namespace PulseLink

variable {I : Sig} {σ σ' ρ W : Type}

namespace Proc

variable {α α' β β' : Type}

/-- The two programs ask the same, whatever is answered, and return values related by `Q`. -/
inductive Twin (Q : α → α' → Prop) : Proc I α → Proc I α' → Prop where
  | ret {value : α} {value' : α'} (hvalue : Q value value') : Twin Q (.ret value) (.ret value')
  | op {o : I.Op} {next : I.Ans o → Proc I α} {next' : I.Ans o → Proc I α'}
      (hnext : ∀ ans, Twin Q (next ans) (next' ans)) : Twin Q (.op o next) (.op o next')

theorem Twin.refl (p : Proc I α) : Twin Eq p p := by
  induction p with
  | ret value => exact .ret rfl
  | op o next ih => exact .op ih

theorem Twin.bind {Q : α → α' → Prop} {R : β → β' → Prop} {p : Proc I α} {p' : Proc I α'}
    {f : α → Proc I β} {f' : α' → Proc I β'} (htwin : Twin Q p p')
    (hf : ∀ value value', Q value value' → Twin R (f value) (f' value')) :
    Twin R (p >>= f) (p' >>= f') := by
  induction htwin with
  | ret hvalue => exact hf _ _ hvalue
  | op _ ih => exact .op ih

/-- Twins that begin with the same program. -/
theorem Twin.same {R : β → β' → Prop} (p : Proc I α) {f : α → Proc I β} {f' : α → Proc I β'}
    (hf : ∀ value, Twin R (f value) (f' value)) : Twin R (p >>= f) (p >>= f') :=
  (Twin.refl p).bind fun value _ heq => heq ▸ hf value

/-- On states related by `R`, where the operations give the same answers and keep `R`, a run of one twin
gives a run of the other with the same events. -/
theorem Twin.runs {Q : α → α' → Prop} {P : I.Op → Prop} {R : W → W → Prop} {h : Handler I W}
    (hop : ∀ o w w', P o → R w w' → (h o w').1 = (h o w).1 ∧ R (h o w).2 (h o w').2)
    {p : Proc I α} {p' : Proc I α'} (htwin : Twin Q p p') (hp : p.Uses P) {w w' w₁ : W} (hR : R w w')
    {value : α} {t : List (Event I)} (hruns : Runs h p w value w₁ t) :
    ∃ value' w₁', Runs h p' w' value' w₁' t ∧ Q value value' ∧ R w₁ w₁' := by
  induction htwin generalizing w w' t with
  | ret hvalue =>
      cases hruns
      exact ⟨_, _, .ret _ _, hvalue, hR⟩
  | @op o next next' _ ih =>
      rw [Runs, exec_op] at hruns
      cases hruns
      obtain ⟨hans, hR₁⟩ := hop o w w' hp.1 hR
      obtain ⟨value', w₁', hrest, hQ, hR'⟩ := ih _ (hp.2 _) hR₁ rfl
      have hfirst : h o w' = ((h o w).1, (h o w').2) := Prod.ext hans rfl
      exact ⟨value', w₁', .op hfirst hrest, hQ, hR'⟩

end Proc

/-! ### Related states, as long as nothing breaks -/

section Unbroken

variable {α : Type} {h : Handler I W} {R : W → W → Prop} {B : W → Prop}

/-- A run on one of two related states is a run on the other, unless it comes to a broken state, one in `B`. -/
theorem Proc.Runs.transfer
    (hop : ∀ o w w', R w w' → ((h o w').1 = (h o w).1 ∧ R (h o w).2 (h o w').2) ∨ B (h o w).2)
    (hbroken : ∀ o w, B w → B (h o w).2) {p : Proc I α} {w w' w₁ : W} {value : α} {t : List (Event I)}
    (hruns : Runs h p w value w₁ t) (hR : R w w') : B w₁ ∨ ∃ w₁', Runs h p w' value w₁' t ∧ R w₁ w₁' := by
  induction p generalizing w w' t with
  | ret value =>
      cases hruns
      exact Or.inr ⟨w', .ret _ _, hR⟩
  | op o next ih =>
      rw [Runs, Proc.exec_op] at hruns
      cases hruns
      rcases hop o w w' hR with ⟨hans, hR₁⟩ | hbroke
      · refine (ih _ rfl hR₁).imp_right ?_
        rintro ⟨w₁', hrest, hR'⟩
        have hfirst : h o w' = ((h o w).1, (h o w').2) := Prod.ext hans rfl
        exact ⟨w₁', .op hfirst hrest, hR'⟩
      · exact Or.inl ((Proc.runs_exec h (next (h o w).1) (h o w).2).invariant hbroken hbroke)

theorem Loop.Ends.invariant {J : W → Prop} (hop : ∀ o w, J w → J (h o w).2) {body : Loop I σ ρ} {s : σ} {w : W}
    {out : Outcome I W ρ} (hends : Loop.Ends body h s w out) (hw : J w) : J out.world := by
  induction hends with
  | stop hturn => exact Proc.Runs.invariant hop hturn hw
  | turn hturn _ ih => exact ih (Proc.Runs.invariant hop hturn hw)

theorem Loop.Ends.transfer
    (hop : ∀ o w w', R w w' → ((h o w').1 = (h o w).1 ∧ R (h o w).2 (h o w').2) ∨ B (h o w).2)
    (hbroken : ∀ o w, B w → B (h o w).2) {body : Loop I σ ρ} {s : σ} {w w' : W} {out : Outcome I W ρ}
    (hends : Loop.Ends body h s w out) (hR : R w w') :
    B out.world ∨ ∃ v', Loop.Ends body h s w' ⟨out.value, v', out.trace⟩ ∧ R out.world v' := by
  induction hends generalizing w' with
  | stop hturn =>
      refine (Proc.Runs.transfer hop hbroken hturn hR).imp_right ?_
      rintro ⟨v', hruns, hR'⟩
      exact ⟨v', .stop hruns, hR'⟩
  | turn hturn hrest ih =>
      rcases Proc.Runs.transfer hop hbroken hturn hR with hbroke | ⟨w₁', hruns, hR₁⟩
      · have hlast := hrest.invariant hbroken hbroke
        exact Or.inl hlast
      · refine (ih hR₁).imp_right ?_
        rintro ⟨v', hends', hR'⟩
        exact ⟨v', .turn hruns hends', hR'⟩

end Unbroken

/-- The events whose operations are seen. -/
def visible (seen : I.Op → Bool) (t : List (Event I)) : List (Event I) := t.filter fun e => seen e.op

theorem visible_append (seen : I.Op → Bool) (t t' : List (Event I)) :
    visible seen (t ++ t') = visible seen t ++ visible seen t' :=
  List.filter_append _ _

@[simp] theorem visible_nil (seen : I.Op → Bool) : visible seen ([] : List (Event I)) = [] := rfl

/-- What is read off seen events only is read off the visible part. -/
theorem filterMap_visible {α : Type} {seen : I.Op → Bool} {f : Event I → Option α}
    (hf : ∀ e, seen e.op = false → f e = none) (t : List (Event I)) :
    (visible seen t).filterMap f = t.filterMap f := by
  rw [visible, List.filterMap_filter]
  refine List.filterMap_congr fun e _ => ?_
  cases hseen : seen e.op with
  | true => rfl
  | false => exact (hf e hseen).symm

/-- Both loops end, with the same result, the same visible events and states related by `R`. -/
def Alike (seen : I.Op → Bool) (h : Handler I W) (R : W → W → Prop) (body : Loop I σ ρ)
    (body' : Loop I σ' ρ) (s : σ) (w : W) (s' : σ') (w' : W) : Prop :=
  ∃ (r : ρ) (v v' : W) (t t' : List (Event I)), Loop.Ends body h s w ⟨r, v, t⟩ ∧
    Loop.Ends body' h s' w' ⟨r, v', t'⟩ ∧ visible seen t = visible seen t' ∧ R v v'

namespace Alike

variable {seen : I.Op → Bool} {h : Handler I W} {R : W → W → Prop} {body : Loop I σ ρ}
  {body' : Loop I σ' ρ} {s s₁ : σ} {s' s₁' : σ'} {w w₁ w' w₁' : W} {t t' : List (Event I)}

/-- Both leave. -/
theorem stop {r : ρ} (hbody : (body s).Runs h w (.inr r) w₁ t) (hbody' : (body' s').Runs h w' (.inr r) w₁' t')
    (hvisible : visible seen t = visible seen t') (hR : R w₁ w₁') :
    Alike seen h R body body' s w s' w' :=
  ⟨r, w₁, w₁', t, t', .stop hbody, .stop hbody', hvisible, hR⟩

/-- Both take a turn. -/
theorem turn (hbody : (body s).Runs h w (.inl s₁) w₁ t) (hbody' : (body' s').Runs h w' (.inl s₁') w₁' t')
    (hvisible : visible seen t = visible seen t') (hrest : Alike seen h R body body' s₁ w₁ s₁' w₁') :
    Alike seen h R body body' s w s' w' := by
  obtain ⟨r, v, v', u, u', hends, hends', hvis, hR⟩ := hrest
  refine ⟨r, v, v', t ++ u, t' ++ u', .turn hbody hends, .turn hbody' hends', ?_, hR⟩
  rw [visible_append, visible_append, hvisible, hvis]

/-- The second side takes a turn that shows nothing. -/
theorem right (hbody' : (body' s').Runs h w' (.inl s₁') w₁' t') (hvisible : visible seen t' = [])
    (hrest : Alike seen h R body body' s w s₁' w₁') : Alike seen h R body body' s w s' w' := by
  obtain ⟨r, v, v', u, u', hends, hends', hvis, hR⟩ := hrest
  refine ⟨r, v, v', u, t' ++ u', hends, .turn hbody' hends', ?_, hR⟩
  rw [visible_append, hvisible, List.nil_append, hvis]

theorem symm {R' : W → W → Prop} (hR : ∀ {v v'}, R v v' → R' v' v)
    (halike : Alike seen h R body body' s w s' w') : Alike seen h R' body' body s' w' s w := by
  obtain ⟨r, v, v', t, t', hends, hends', hvis, hv⟩ := halike
  exact ⟨r, v', v, t', t, hends', hends, hvis.symm, hR hv⟩

end Alike

end PulseLink
