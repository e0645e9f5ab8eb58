import PulseLink.BaseMonitor

/-! Layers. The operations of one level are kept as operations of the level below or are implemented there by
loops. A program of the upper level then runs on the lower one. A monitor of the upper level carries over to one of
the lower level if every implementation keeps the two in step. -/

namespace PulseLink

/-- How the level with operations `I` is implemented on the one with operations `J`: `loops` tells which operations
are loops, from the loop state `init`; the others become one operation. -/
structure Layer (I J : Sig) (κ : Type) where
  loops : I.Op → Bool
  keep : I.Op → J.Op
  answer : (o : I.Op) → J.Ans (keep o) → I.Ans o
  init : I.Op → κ
  impl : (o : I.Op) → Loop J κ (I.Ans o)

/-- Where a program is on the lower level: before `rest`, or in the loop of an operation with what follows it. -/
inductive LayerPc (I : Sig) (κ σ ρ : Type) where
  | before (rest : Proc I (σ ⊕ ρ))
  | inside (o : I.Op) (next : I.Ans o → Proc I (σ ⊕ ρ)) (k : κ)

namespace Layer

variable {I J : Sig} {κ σ ρ : Type} (layer : Layer I J κ) (body : Loop I σ ρ)

/-- Behind a turn of the loop of an operation. -/
def resume (o : I.Op) (next : I.Ans o → Proc I (σ ⊕ ρ)) : κ ⊕ I.Ans o → LayerPc I κ σ ρ
  | .inl k => .inside o next k
  | .inr ans => .before (next ans)

/-- The program on the lower level. -/
def lower : Loop J (LayerPc I κ σ ρ) ρ
  | .before (.ret (.inl s)) => return .inl (.before (body s))
  | .before (.ret (.inr r)) => return .inr r
  | .before (.op o next) =>
      if layer.loops o then return .inl (.inside o next (layer.init o))
      else do
        let ans ← Proc.perform (layer.keep o)
        return .inl (.before (next (layer.answer o ans)))
  | .inside o next k => do
      let x ← layer.impl o k
      return .inl (resume o next x)

theorem lower_op_loop {o : I.Op} (hloops : layer.loops o = true) (next : I.Ans o → Proc I (σ ⊕ ρ)) :
    layer.lower body (.before (.op o next)) = .ret (.inl (.inside o next (layer.init o))) := by
  rw [lower, if_pos hloops]
  rfl

theorem lower_op_keep {o : I.Op} (hkeeps : layer.loops o = false) (next : I.Ans o → Proc I (σ ⊕ ρ)) :
    layer.lower body (.before (.op o next)) =
      .op (layer.keep o) fun ans => .ret (.inl (.before (next (layer.answer o ans)))) := by
  rw [lower, hkeeps]
  rfl

/-! ### Monitors -/

section Monitors

variable {S T : Type} (M : Monitor I S) (m : Monitor J T) (R : S → T → Prop) (A : σ → S → Prop) (E : ρ → S → Prop)

/-- The state of the lower monitor behind an operation answered with `ans`. -/
def Answered (s : S) (o : I.Op) (ans : I.Ans o) (x : T) : Prop := ∃ s', M s ⟨o, ans⟩ = some s' ∧ R s' x

/-- The implementation of `o` keeps the monitors in step, from state `s` of the upper one, with invariant `K`. -/
def Keeps (s : S) (o : I.Op) (K : κ → T → Prop) : Prop :=
  ∀ k x, K k x → (layer.impl o k).Follows m (Monitor.Turned K (Answered M R s o)) x

/-- How a program on the lower level stands to the monitors. -/
def InStep : LayerPc I κ σ ρ → T → Prop
  | .before rest, x => ∃ s, rest.Follows M (Monitor.Turned A E) s ∧ R s x
  | .inside o next k, x => ∃ s K, layer.Keeps M m R s o K ∧ K k x ∧
      ∀ ans s', M s ⟨o, ans⟩ = some s' → (next ans).Follows M (Monitor.Turned A E) s'

variable {M m R A E}

/-- The rule for layers: a program that follows the upper monitor follows the lower one on the lower level, if each
operation does so alone. -/
theorem lower_follows (hbody : ∀ a s, A a s → (body a).Follows M (Monitor.Turned A E) s)
    (hkeep : ∀ o s x, layer.loops o = false → R s x → (∀ ans, ∃ s', M s ⟨o, ans⟩ = some s') →
      ∀ ans, ∃ x', m x ⟨layer.keep o, ans⟩ = some x' ∧ Answered M R s o (layer.answer o ans) x')
    (hloop : ∀ o s x, layer.loops o = true → R s x → (∀ ans, ∃ s', M s ⟨o, ans⟩ = some s') →
      ∃ K, layer.Keeps M m R s o K ∧ K (layer.init o) x) (pc : LayerPc I κ σ ρ) (x : T)
    (hpc : layer.InStep M m R A E pc x) :
    (layer.lower body pc).Follows m (Monitor.Turned (layer.InStep M m R A E) fun r x => ∃ s, E r s ∧ R s x) x := by
  cases pc with
  | before rest =>
      obtain ⟨s, hrest, hR⟩ := hpc
      cases rest with
      | ret value =>
          cases value with
          | inl a => exact ⟨s, hbody a s hrest, hR⟩
          | inr r => exact ⟨s, hrest, hR⟩
      | op o next =>
          have hmoves : ∀ ans, ∃ s', M s ⟨o, ans⟩ = some s' := by
            intro ans
            obtain ⟨s', hs', -⟩ := hrest ans
            exact ⟨s', hs'⟩
          have hnext : ∀ ans s', M s ⟨o, ans⟩ = some s' → (next ans).Follows M (Monitor.Turned A E) s' := by
            intro ans s' hs'
            obtain ⟨s₁, hs₁, hfollows⟩ := hrest ans
            cases hs'.symm.trans hs₁
            exact hfollows
          cases hloops : layer.loops o with
          | true =>
              rw [lower_op_loop layer body hloops]
              obtain ⟨K, hK, hinit⟩ := hloop o s x hloops hR hmoves
              exact ⟨s, K, hK, hinit, hnext⟩
          | false =>
              rw [lower_op_keep layer body hloops]
              intro ans
              obtain ⟨x', hx', s', hs', hR'⟩ := hkeep o s x hloops hR hmoves ans
              exact ⟨x', hx', s', hnext _ s' hs', hR'⟩
  | inside o next k =>
      obtain ⟨s, K, hK, hk, hnext⟩ := hpc
      refine (hK k x hk).bind ?_
      intro x' value hvalue
      cases value with
      | inl k' => exact ⟨s, K, hK, hvalue, hnext⟩
      | inr ans =>
          obtain ⟨s', hs', hR'⟩ := hvalue
          exact ⟨s', hnext ans s' hs', hR'⟩

end Monitors

end Layer

end PulseLink
