import PulseLink.BaseProc

/-! Total correctness of a program that runs alone: its weakest precondition against a handler, and the rule for
loops, with an invariant and a measure that every turn lowers. -/

namespace PulseLink

namespace Proc

variable {I : Sig} {α β W : Type} (h : Handler I W)

/-- Running alone from `w`, the program ends with a value and a state that satisfy `Q`. -/
def Ensures (Q : α → W → Prop) : Proc I α → W → Prop
  | .ret value, w => Q value w
  | .op o next, w => (next (h o w).1).Ensures Q (h o w).2

variable {h}

theorem ensures_iff {Q : α → W → Prop} {p : Proc I α} {w : W} :
    p.Ensures h Q w ↔ Q (p.exec h w).value (p.exec h w).world := by
  induction p generalizing w with
  | ret value => exact Iff.rfl
  | op o next ih => exact ih _

theorem Ensures.perform {Q : α → W → Prop} {o : I.Op} {f : I.Ans o → Proc I α} {w : W}
    (hrest : (f (h o w).1).Ensures h Q (h o w).2) : (Proc.perform o >>= f).Ensures h Q w := hrest

theorem Ensures.bind {Q : α → W → Prop} {R : β → W → Prop} {p : Proc I α} {f : α → Proc I β} {w : W}
    (hp : p.Ensures h Q w) (hf : ∀ value w', Q value w' → (f value).Ensures h R w') :
    (p >>= f).Ensures h R w := by
  induction p generalizing w with
  | ret value => exact hf value w hp
  | op o next ih => exact ih _ hp

end Proc

namespace Loop

variable {I : Sig} {σ ρ W : Type} {body : Loop I σ ρ} {h : Handler I W}

/-- What a turn has to establish: the invariant again with less of the measure, or the postcondition. -/
def Advances (J : σ → W → Prop) (μ : σ → W → Nat) (Q : ρ → W → Prop) (n : Nat) : σ ⊕ ρ → W → Prop
  | .inl s, w => J s w ∧ μ s w < n
  | .inr r, w => Q r w

/-- The rule for loops. -/
theorem ends_ensuring {J : σ → W → Prop} {Q : ρ → W → Prop} (μ : σ → W → Nat)
    (hturn : ∀ s w, J s w → (body s).Ensures h (Advances J μ Q (μ s w)) w) {s : σ} {w : W} (hJ : J s w) :
    ∃ out, Ends body h s w out ∧ Q out.value out.world := by
  induction hn : μ s w using Nat.strong_induction_on generalizing s w with
  | _ n ih =>
      have hadvances := Proc.ensures_iff.mp (hturn s w hJ)
      rcases hexec : (body s).exec h w with ⟨s' | r, w', t⟩
      · rw [hexec] at hadvances
        obtain ⟨hJ', hless⟩ := hadvances
        obtain ⟨⟨r, w'', t'⟩, hends, hQ⟩ := ih _ (hn ▸ hless) hJ' rfl
        exact ⟨_, .turn hexec hends, hQ⟩
      · rw [hexec] at hadvances
        exact ⟨_, .stop hexec, hadvances⟩

end Loop

end PulseLink
