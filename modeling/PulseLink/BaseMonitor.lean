import PulseLink.BasePool

/-! Monitors. A monitor is a state machine that reads the events of a program and has no move for an event
that is not allowed. A program that follows a monitor under any answers stays allowed at every point of every
run, finished or not, so what is wanted of the traces of a thread is proved about the traces of a small state
machine. -/

namespace PulseLink

/-- What can be read off a log, after one more event. -/
theorem filterMap_concat {α β : Type} (f : α → Option β) (l : List α) (a : α) :
    (l ++ [a]).filterMap f = l.filterMap f ++ (f a).toList := by
  rw [List.filterMap_append]
  cases h : f a <;> simp [h]

/-- What a monitor makes of an event in each of its states, if the event is allowed there. -/
abbrev Monitor (I : Sig) (S : Type) := S → Event I → Option S

namespace Monitor

variable {I : Sig} {S : Type} (m : Monitor I S)

/-- Reading the events `t` takes the monitor from `s` to `s'`. -/
inductive Accepts : S → List (Event I) → S → Prop where
  | nil (s : S) : Accepts s [] s
  | cons {s s₁ s' : S} {e : Event I} {t : List (Event I)} (hmove : m s e = some s₁)
      (hrest : Accepts s₁ t s') : Accepts s (e :: t) s'

variable {m}

theorem Accepts.append {s s₁ s' : S} {t t' : List (Event I)} (h : m.Accepts s t s₁)
    (h' : m.Accepts s₁ t' s') : m.Accepts s (t ++ t') s' := by
  induction h with
  | nil s => exact h'
  | cons hmove _ ih => exact .cons hmove (ih h')

theorem Accepts.split {s s' : S} {t t' : List (Event I)} (h : m.Accepts s (t ++ t') s') :
    ∃ s₁, m.Accepts s t s₁ ∧ m.Accepts s₁ t' s' := by
  induction t generalizing s with
  | nil => exact ⟨s, .nil s, h⟩
  | cons e t ih =>
      cases h with
      | cons hmove hrest =>
          obtain ⟨s₁, hfirst, hsecond⟩ := ih hrest
          exact ⟨s₁, .cons hmove hfirst, hsecond⟩

theorem Accepts.unique {s s₁ s₂ : S} {t : List (Event I)} (h₁ : m.Accepts s t s₁) (h₂ : m.Accepts s t s₂) :
    s₁ = s₂ := by
  induction h₁ with
  | nil s =>
      cases h₂
      rfl
  | cons hmove _ ih =>
      cases h₂ with
      | cons hmove' hrest =>
          rw [hmove] at hmove'
          cases hmove'
          exact ih hrest

/-- A relation between the state and the history that every move keeps holds along every accepted trace. -/
theorem Accepts.invariant {P : S → List (Event I) → Prop}
    (hmoves : ∀ s t e s', P s t → m s e = some s' → P s' (t ++ [e])) {s s' : S} {t₀ t : List (Event I)}
    (hs : P s t₀) (h : m.Accepts s t s') : P s' (t₀ ++ t) := by
  induction h generalizing t₀ with
  | nil s => rwa [List.append_nil]
  | @cons s s₁ s' e t hmove _ ih =>
      have hstep := ih (hmoves s t₀ e s₁ hs hmove)
      rwa [List.append_assoc, List.singleton_append] at hstep

/-- The same from the start. -/
theorem Accepts.keeps {P : S → List (Event I) → Prop}
    (hmoves : ∀ s t e s', P s t → m s e = some s' → P s' (t ++ [e])) {s s' : S} {t : List (Event I)} (hs : P s [])
    (h : m.Accepts s t s') : P s' t :=
  h.invariant hmoves hs

end Monitor

/-! ### Programs that follow a monitor -/

namespace Proc

variable {I : Sig} {S α β : Type} {m : Monitor I S}

/-- From state `s` of the monitor, every event the program can perform is allowed, and it returns with `Q` of
the monitor's state and the value. -/
def Follows (m : Monitor I S) (Q : S → α → Prop) : S → Proc I α → Prop
  | s, .ret value => Q s value
  | s, .op o next => ∀ ans, ∃ s', m s ⟨o, ans⟩ = some s' ∧ Follows m Q s' (next ans)

theorem Follows.perform {Q : S → α → Prop} {s : S} {o : I.Op} {f : I.Ans o → Proc I α}
    (hf : ∀ ans, ∃ s', m s ⟨o, ans⟩ = some s' ∧ (f ans).Follows m Q s') :
    (Proc.perform o >>= f).Follows m Q s :=
  hf

theorem Follows.mono {Q R : S → α → Prop} (hQR : ∀ s value, Q s value → R s value) {s : S} {p : Proc I α}
    (hp : p.Follows m Q s) : p.Follows m R s := by
  induction p generalizing s with
  | ret value => exact hQR s value hp
  | op o next ih =>
      intro ans
      obtain ⟨s', hmove, hnext⟩ := hp ans
      exact ⟨s', hmove, ih ans hnext⟩

theorem Follows.bind {Q : S → α → Prop} {R : S → β → Prop} {s : S} {p : Proc I α} {f : α → Proc I β}
    (hp : p.Follows m Q s) (hf : ∀ s' value, Q s' value → (f value).Follows m R s') :
    (p >>= f).Follows m R s := by
  induction p generalizing s with
  | ret value => exact hf s value hp
  | op o next ih =>
      intro ans
      obtain ⟨s', hmove, hnext⟩ := hp ans
      exact ⟨s', hmove, ih ans hnext⟩

/-- A program whose operations all leave the monitor where it is. -/
theorem Within.follows {P : I.Op → Prop} {Q : α → Prop} {s : S} (hP : ∀ o ans, P o → m s ⟨o, ans⟩ = some s)
    {p : Proc I α} (hp : p.Within P Q) : p.Follows m (fun s' value => s' = s ∧ Q value) s := by
  induction p with
  | ret value => exact ⟨rfl, hp⟩
  | op o next ih => exact fun ans => ⟨s, hP o ans hp.1, ih ans (hp.2 ans)⟩

/-- An expanded program all of whose operations are replaced by programs that leave the monitor where it is. -/
theorem Within.expand_follows {J : Sig} {tr : (o : J.Op) → Proc I (J.Ans o)} {P : J.Op → Prop} {Q : α → Prop}
    {s : S}
    (htr : ∀ o, P o → (tr o).Follows m (fun s' _ => s' = s) s) {p : Proc J α} (hp : p.Within P Q) :
    (p.expand tr).Follows m (fun s' value => s' = s ∧ Q value) s := by
  induction p with
  | ret value => exact ⟨rfl, hp⟩
  | op o next ih =>
      refine (htr o hp.1).bind ?_
      rintro s' ans rfl
      exact ih ans (hp.2 ans)

/-- A program that follows a monitor, with each operation replaced by a program that takes another monitor to the
same state. -/
theorem Follows.expand {J : Sig} {n : Monitor J S} {tr : (o : J.Op) → Proc I (J.Ans o)}
    (htr : ∀ o s, (∀ ans, ∃ s', n s ⟨o, ans⟩ = some s') →
      (tr o).Follows m (fun s' ans => n s ⟨o, ans⟩ = some s') s) {Q : S → α → Prop} {s : S} {p : Proc J α}
    (hp : p.Follows n Q s) : (p.expand tr).Follows m Q s := by
  induction p generalizing s with
  | ret value => exact hp
  | op o next ih =>
      refine (htr o s fun ans => ?_).bind ?_
      · obtain ⟨s', hmove, -⟩ := hp ans
        exact ⟨s', hmove⟩
      · intro s' ans hmove
        obtain ⟨s₁, hmove₁, hnext⟩ := hp ans
        cases hmove.symm.trans hmove₁
        exact ih ans hnext

theorem Follows.reach {Q : S → α → Prop} {s : S} {p q : Proc I α} {t : List (Event I)}
    (hp : p.Follows m Q s) (hreach : p.Reach t q) : ∃ s', m.Accepts s t s' ∧ q.Follows m Q s' := by
  induction hreach generalizing s with
  | refl p => exact ⟨s, .nil s, hp⟩
  | op _ ih =>
      obtain ⟨s₁, hmove, hnext⟩ := hp _
      obtain ⟨s', haccepts, hq⟩ := ih hnext
      exact ⟨s', .cons hmove haccepts, hq⟩

/-- A handler whose answers the monitor allows, `v` being the monitor's state: the monitor accepts every run
against it. -/
theorem accepts_exec {W : Type} {h : Handler I W} {v : W → S}
    (hv : ∀ o w, m (v w) ⟨o, (h o w).1⟩ = some (v (h o w).2)) (p : Proc I α) (w : W) :
    m.Accepts (v w) (p.exec h w).trace (v (p.exec h w).world) := by
  induction p generalizing w with
  | ret value => exact .nil _
  | op o next ih => exact .cons (hv o w) (ih _ _)

end Proc

/-! ### Loops and threads -/

section Loops

variable {I : Sig} {S σ ρ : Type} {m : Monitor I S}

/-- After a turn: `J` of the loop state it goes on with, or `E` of the result it leaves with. -/
def Monitor.Turned (J : σ → S → Prop) (E : ρ → S → Prop) (s : S) : σ ⊕ ρ → Prop
  | .inl a => J a s
  | .inr r => E r s

/-- How a thread stands to the monitor: inside a turn that follows it, or finished with `E`. -/
def Monitor.Tracks (m : Monitor I S) (J : σ → S → Prop) (E : ρ → S → Prop) (s : S) : Thread I σ ρ → Prop
  | .busy p => p.Follows m (Monitor.Turned J E) s
  | .done r => E r s

/-- The monitor accepts what brings a loop to a turn. -/
theorem Loop.Arrives.accepts {body : Loop I σ ρ} {J : σ → S → Prop} {E : ρ → S → Prop}
    (hturn : ∀ a s, J a s → (body a).Follows m (Monitor.Turned J E) s) {a a' : σ} {s : S}
    {t : List (Event I)} (hJ : J a s) (harrives : Loop.Arrives body a t a') :
    ∃ s', m.Accepts s t s' ∧ J a' s' := by
  induction harrives generalizing s with
  | here a => exact ⟨s, .nil s, hJ⟩
  | turn hfirst _ ih =>
      obtain ⟨s₁, haccepts₁, hJ₁⟩ := (hturn _ s hJ).reach hfirst.reach
      obtain ⟨s', haccepts₂, hJ'⟩ := ih hJ₁
      exact ⟨s', haccepts₁.append haccepts₂, hJ'⟩

/-- The rule for threads: if every turn from a loop state with `J` follows the monitor and keeps `J`, the
monitor accepts what the thread has performed, wherever it stands. -/
theorem Pool.Stands.accepts {body : Loop I σ ρ} {J : σ → S → Prop} {E : ρ → S → Prop}
    (hturn : ∀ a s, J a s → (body a).Follows m (Monitor.Turned J E) s) {a : σ} {s : S}
    {t : List (Event I)} {th : Thread I σ ρ} (hJ : J a s) (hstands : Pool.Stands body a t th) :
    ∃ s', m.Accepts s t s' ∧ m.Tracks J E s' th := by
  induction hstands generalizing s with
  | inside hreach => exact (hturn _ s hJ).reach hreach
  | left hlast => exact (hturn _ s hJ).reach hlast.reach
  | later hpath _ ih =>
      obtain ⟨s₁, hfirst, hJ₁⟩ := (hturn _ s hJ).reach hpath.reach
      obtain ⟨s', hrest, hth⟩ := ih hJ₁
      exact ⟨s', hfirst.append hrest, hth⟩

end Loops

end PulseLink
