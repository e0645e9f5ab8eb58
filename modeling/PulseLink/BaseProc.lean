import Mathlib

/-! Programs over atomic operations. A `Proc` is a finite tree of operations with one branch for each
answer of the environment; a loop runs such a tree again and again on its own state. `exec` runs a
program alone against a handler, `Path` describes every run under any answers at all, which is what a
thread of an interleaving has: the other threads only decide the answers. -/

namespace PulseLink

/-- The atomic operations of a program and the type of the answer to each. -/
structure Sig where
  Op : Type
  Ans : Op → Type

/-- A program: a value, or an operation and what to do with its answer. -/
inductive Proc (I : Sig) (α : Type) where
  | ret (value : α)
  | op (o : I.Op) (next : I.Ans o → Proc I α)

/-- An operation together with the answer it got. -/
structure Event (I : Sig) where
  op : I.Op
  ans : I.Ans op

/-- How the environment answers an operation, and what the operation does to its state. -/
abbrev Handler (I : Sig) (W : Type) := (o : I.Op) → W → I.Ans o × W

/-- The next outcome of a list of choices. -/
def draw {α : Type} (otherwise : α) : List α → α × List α
  | [] => (otherwise, [])
  | a :: rest => (a, rest)

theorem draw_all {α : Type} {P : α → Prop} {otherwise : α} (hotherwise : P otherwise) {l : List α}
    (hall : ∀ a ∈ l, P a) : P (draw otherwise l).1 ∧ ∀ a ∈ (draw otherwise l).2, P a := by
  cases l with
  | nil => exact ⟨hotherwise, hall⟩
  | cons a rest => exact ⟨hall a List.mem_cons_self, fun b hb => hall b (List.mem_cons_of_mem _ hb)⟩

theorem draw_suffix {α : Type} (otherwise : α) (l : List α) : (draw otherwise l).2 <:+ l := by
  cases l with
  | nil => exact List.suffix_rfl
  | cons a rest => exact List.suffix_cons a rest

theorem mem_draw_of_mem {α : Type} {otherwise a : α} {l : List α} (ha : a ∈ (draw otherwise l).2) : a ∈ l :=
  (draw_suffix otherwise l).mem ha

/-- An answer other than the one given for want of any was the next of the script. -/
theorem draw_of_ne {α : Type} {otherwise a : α} {l : List α} (hdraw : (draw otherwise l).1 = a)
    (hne : a ≠ otherwise) : l = a :: (draw otherwise l).2 := by
  cases l with
  | nil => exact absurd hdraw.symm hne
  | cons b rest => exact congrArg (· :: rest) hdraw

/-- A finished run: the value, the state of the environment and what was performed, in order. -/
structure Outcome (I : Sig) (W α : Type) where
  value : α
  world : W
  trace : List (Event I)

namespace Proc

variable {I : Sig} {α β γ W : Type}

protected def bind : Proc I α → (α → Proc I β) → Proc I β
  | .ret value, f => f value
  | .op o next, f => .op o fun ans => (next ans).bind f

instance : Monad (Proc I) where
  pure := .ret
  bind := Proc.bind

/-- Performs one operation and returns its answer. -/
def perform (o : I.Op) : Proc I (I.Ans o) := .op o .ret

@[simp] theorem pure_eq (value : α) : (pure value : Proc I α) = .ret value := rfl

@[simp] theorem ret_bind (value : α) (f : α → Proc I β) : (Proc.ret value >>= f) = f value := rfl

@[simp] theorem op_bind (o : I.Op) (next : I.Ans o → Proc I α) (f : α → Proc I β) :
    (Proc.op o next >>= f) = .op o fun ans => next ans >>= f := rfl

@[simp] theorem perform_bind (o : I.Op) (f : I.Ans o → Proc I β) :
    (perform o >>= f) = .op o f := rfl

theorem bind_assoc' (p : Proc I α) (f : α → Proc I β) (g : β → Proc I γ) :
    (p >>= f) >>= g = p >>= fun value => f value >>= g := by
  induction p with
  | ret value => rfl
  | op o next ih =>
      simp only [op_bind]
      congr 1
      funext ans
      exact ih ans

/-! ### Running alone -/

/-- Runs the program against a handler. -/
def exec (h : Handler I W) : Proc I α → W → Outcome I W α
  | .ret value, w => ⟨value, w, []⟩
  | .op o next, w =>
      let rest := (next (h o w).1).exec h (h o w).2
      ⟨rest.value, rest.world, ⟨o, (h o w).1⟩ :: rest.trace⟩

variable (h : Handler I W)

@[simp] theorem exec_ret (value : α) (w : W) : (Proc.ret value).exec h w = ⟨value, w, []⟩ := rfl

theorem exec_op (o : I.Op) (next : I.Ans o → Proc I α) (w : W) :
    (Proc.op o next).exec h w =
      ⟨((next (h o w).1).exec h (h o w).2).value, ((next (h o w).1).exec h (h o w).2).world,
        ⟨o, (h o w).1⟩ :: ((next (h o w).1).exec h (h o w).2).trace⟩ := rfl

theorem exec_bind (p : Proc I α) (f : α → Proc I β) (w : W) :
    (p >>= f).exec h w =
      ⟨((f (p.exec h w).value).exec h (p.exec h w).world).value,
        ((f (p.exec h w).value).exec h (p.exec h w).world).world,
        (p.exec h w).trace ++ ((f (p.exec h w).value).exec h (p.exec h w).world).trace⟩ := by
  induction p generalizing w with
  | ret value => rfl
  | op o next ih =>
      simp only [op_bind, exec_op, ih, List.cons_append]

/-- Running alone from `w`, the program returns `value` in state `w'` having performed `t`. -/
def Runs (p : Proc I α) (w : W) (value : α) (w' : W) (t : List (Event I)) : Prop :=
  p.exec h w = ⟨value, w', t⟩

variable {h}

theorem Runs.ret (value : α) (w : W) : Runs h (.ret value) w value w [] := rfl

theorem Runs.op {o : I.Op} {next : I.Ans o → Proc I α} {w w₁ w' : W} {ans : I.Ans o} {value : α}
    {t : List (Event I)} (hop : h o w = (ans, w₁)) (hrest : Runs h (next ans) w₁ value w' t) :
    Runs h (.op o next) w value w' (⟨o, ans⟩ :: t) := by
  rw [Runs, exec_op, hop, hrest]

theorem Runs.perform {o : I.Op} {f : I.Ans o → Proc I α} {w w₁ w' : W} {ans : I.Ans o} {value : α}
    {t : List (Event I)} (hop : h o w = (ans, w₁)) (hrest : Runs h (f ans) w₁ value w' t) :
    Runs h (Proc.perform o >>= f) w value w' (⟨o, ans⟩ :: t) :=
  .op hop hrest

theorem Runs.bind {p : Proc I α} {f : α → Proc I β} {w w₁ w' : W} {mid : α} {value : β}
    {t₁ t₂ : List (Event I)} (hfirst : Runs h p w mid w₁ t₁) (hrest : Runs h (f mid) w₁ value w' t₂) :
    Runs h (p >>= f) w value w' (t₁ ++ t₂) := by
  rw [Runs, exec_bind, hfirst]
  exact congrArg (fun out : Outcome I W β => Outcome.mk out.value out.world (t₁ ++ out.trace)) hrest

variable (h) in
theorem runs_exec (p : Proc I α) (w : W) :
    Runs h p w (p.exec h w).value (p.exec h w).world (p.exec h w).trace := rfl

/-! ### Every run -/

/-- `p` can perform exactly the events `t` and return `value`, for some answers. -/
inductive Path : Proc I α → List (Event I) → α → Prop where
  | ret (value : α) : Path (.ret value) [] value
  | op {o : I.Op} {next : I.Ans o → Proc I α} {ans : I.Ans o} {t : List (Event I)} {value : α}
      (rest : Path (next ans) t value) : Path (.op o next) (⟨o, ans⟩ :: t) value

theorem path_ret_iff {value value' : α} {t : List (Event I)} :
    Path (Proc.ret value) t value' ↔ t = [] ∧ value' = value := by
  constructor
  · rintro ⟨⟩
    exact ⟨rfl, rfl⟩
  · rintro ⟨rfl, rfl⟩
    exact .ret _

theorem path_op_iff {o : I.Op} {next : I.Ans o → Proc I α} {t : List (Event I)} {value : α} :
    Path (Proc.op o next) t value ↔
      ∃ ans t', t = ⟨o, ans⟩ :: t' ∧ Path (next ans) t' value := by
  constructor
  · rintro ⟨⟩
    exact ⟨_, _, rfl, ‹_›⟩
  · rintro ⟨ans, t', rfl, hrest⟩
    exact .op hrest

theorem path_bind_iff {p : Proc I α} {f : α → Proc I β} {t : List (Event I)} {value : β} :
    Path (p >>= f) t value ↔
      ∃ t₁ mid t₂, t = t₁ ++ t₂ ∧ Path p t₁ mid ∧ Path (f mid) t₂ value := by
  induction p generalizing t with
  | ret mid =>
      constructor
      · intro hf
        exact ⟨[], mid, t, rfl, .ret mid, hf⟩
      · rintro ⟨t₁, mid', t₂, rfl, hp, hf⟩
        obtain ⟨rfl, rfl⟩ := path_ret_iff.mp hp
        exact hf
  | op o next ih =>
      rw [op_bind, path_op_iff]
      constructor
      · rintro ⟨ans, t', rfl, hrest⟩
        obtain ⟨t₁, mid, t₂, rfl, hp, hf⟩ := (ih ans).mp hrest
        exact ⟨⟨o, ans⟩ :: t₁, mid, t₂, rfl, .op hp, hf⟩
      · rintro ⟨t₁, mid, t₂, rfl, hp, hf⟩
        obtain ⟨ans, t', rfl, hrest⟩ := path_op_iff.mp hp
        exact ⟨ans, t' ++ t₂, rfl, (ih ans).mpr ⟨t', mid, t₂, rfl, hrest, hf⟩⟩

variable (h) in
/-- What a handler runs is one of the paths. -/
theorem exec_path (p : Proc I α) (w : W) : Path p (p.exec h w).trace (p.exec h w).value := by
  induction p generalizing w with
  | ret value => exact .ret value
  | op o next ih => exact .op (ih _ _)

theorem Runs.path {p : Proc I α} {w w' : W} {value : α} {t : List (Event I)}
    (hruns : Runs h p w value w' t) : Path p t value := by
  have hpath := exec_path h p w
  rwa [hruns] at hpath

/-- `p` can perform the events `t` and then stand at `q`. -/
inductive Reach : Proc I α → List (Event I) → Proc I α → Prop where
  | refl (p : Proc I α) : Reach p [] p
  | op {o : I.Op} {next : I.Ans o → Proc I α} {ans : I.Ans o} {t : List (Event I)} {q : Proc I α}
      (rest : Reach (next ans) t q) : Reach (.op o next) (⟨o, ans⟩ :: t) q

theorem Reach.step {p : Proc I α} {t : List (Event I)} {o : I.Op} {next : I.Ans o → Proc I α}
    (hreach : Reach p t (.op o next)) (ans : I.Ans o) : Reach p (t ++ [⟨o, ans⟩]) (next ans) := by
  generalize hq : Proc.op o next = q at hreach
  induction hreach with
  | refl p =>
      subst hq
      exact .op (.refl _)
  | op rest ih => exact .op (ih hq)

theorem Reach.path {p : Proc I α} {t : List (Event I)} {value : α}
    (hreach : Reach p t (.ret value)) : Path p t value := by
  generalize hq : Proc.ret value = q at hreach
  induction hreach with
  | refl p =>
      subst hq
      exact .ret value
  | op rest ih => exact .op (ih hq)

/-- What a program performs under a handler, after what it has performed already. -/
theorem Reach.exec {p q : Proc I α} {t : List (Event I)} (hreach : Reach p t q) (h : Handler I W) (w : W) :
    Path p (t ++ (q.exec h w).trace) (q.exec h w).value := by
  induction hreach with
  | refl p => exact exec_path h p w
  | op _ ih => exact .op ih

theorem Path.reach {p : Proc I α} {t : List (Event I)} {value : α} (hpath : Path p t value) :
    Reach p t (.ret value) := by
  induction hpath with
  | ret value => exact .refl _
  | op _ ih => exact .op ih

theorem reach_ret_iff {value : α} {t : List (Event I)} {q : Proc I α} :
    Reach (.ret value) t q ↔ t = [] ∧ q = .ret value := by
  constructor
  · rintro ⟨⟩
    exact ⟨rfl, rfl⟩
  · rintro ⟨rfl, rfl⟩
    exact .refl _

theorem reach_op_iff {o : I.Op} {next : I.Ans o → Proc I α} {t : List (Event I)} {q : Proc I α} :
    Reach (.op o next) t q ↔
      (t = [] ∧ q = .op o next) ∨ ∃ ans t', t = ⟨o, ans⟩ :: t' ∧ Reach (next ans) t' q := by
  constructor
  · rintro (⟨⟩ | ⟨hrest⟩)
    · exact Or.inl ⟨rfl, rfl⟩
    · exact Or.inr ⟨_, _, rfl, hrest⟩
  · rintro (⟨rfl, rfl⟩ | ⟨ans, t', rfl, hrest⟩)
    · exact .refl _
    · exact .op hrest

/-- A run of `p >>= f` is still inside `p`, or past it. -/
theorem Reach.bind_cases {p : Proc I α} {f : α → Proc I β} {t : List (Event I)} {q : Proc I β}
    (hreach : Reach (p >>= f) t q) :
    (∃ p', Reach p t p') ∨ ∃ t₁ mid t₂, t = t₁ ++ t₂ ∧ Path p t₁ mid ∧ Reach (f mid) t₂ q := by
  induction p generalizing t with
  | ret mid => exact Or.inr ⟨[], mid, t, rfl, .ret mid, hreach⟩
  | op o next ih =>
      rw [op_bind, reach_op_iff] at hreach
      rcases hreach with ⟨rfl, -⟩ | ⟨ans, t', rfl, hrest⟩
      · exact Or.inl ⟨_, .refl _⟩
      · rcases ih ans hrest with ⟨p', hp'⟩ | ⟨t₁, mid, t₂, rfl, hp, hf⟩
        · exact Or.inl ⟨p', .op hp'⟩
        · exact Or.inr ⟨⟨o, ans⟩ :: t₁, mid, t₂, rfl, .op hp, hf⟩

/-- Every operation the program can perform satisfies `P`, every value it can return `Q`. -/
def Within (P : I.Op → Prop) (Q : α → Prop) : Proc I α → Prop
  | .ret value => Q value
  | .op o next => P o ∧ ∀ ans, (next ans).Within P Q

theorem Within.perform {P : I.Op → Prop} {Q : α → Prop} {o : I.Op} {f : I.Ans o → Proc I α} (ho : P o)
    (hf : ∀ ans, (f ans).Within P Q) : (Proc.perform o >>= f).Within P Q :=
  ⟨ho, hf⟩

theorem Within.bind {P : I.Op → Prop} {Q : α → Prop} {R : β → Prop} {p : Proc I α} {f : α → Proc I β}
    (hp : p.Within P Q) (hf : ∀ value, Q value → (f value).Within P R) : (p >>= f).Within P R := by
  induction p with
  | ret value => exact hf value hp
  | op o next ih => exact ⟨hp.1, fun ans => ih ans (hp.2 ans)⟩

theorem Within.mono {P P' : I.Op → Prop} {Q Q' : α → Prop} {p : Proc I α} (hp : p.Within P Q)
    (hP : ∀ o, P o → P' o) (hQ : ∀ value, Q value → Q' value) : p.Within P' Q' := by
  induction p with
  | ret value => exact hQ value hp
  | op o next ih => exact ⟨hP o hp.1, fun ans => ih ans (hp.2 ans)⟩

theorem Within.reach {P : I.Op → Prop} {Q : α → Prop} {p q : Proc I α} {t : List (Event I)}
    (hp : p.Within P Q) (hreach : Reach p t q) : (∀ e ∈ t, P e.op) ∧ q.Within P Q := by
  induction hreach with
  | refl p => exact ⟨by simp, hp⟩
  | op rest ih =>
      obtain ⟨hops, hq⟩ := ih (hp.2 _)
      refine ⟨?_, hq⟩
      intro e he
      rcases List.mem_cons.mp he with rfl | he
      · exact hp.1
      · exact hops e he

theorem Within.path {P : I.Op → Prop} {Q : α → Prop} {p : Proc I α} {t : List (Event I)} {value : α}
    (hp : p.Within P Q) (hpath : Path p t value) : (∀ e ∈ t, P e.op) ∧ Q value :=
  hp.reach hpath.reach

/-- Every operation the program can perform satisfies `P`. -/
abbrev Uses (P : I.Op → Prop) (p : Proc I α) : Prop := p.Within P fun _ => True

theorem Uses.bind {P : I.Op → Prop} {p : Proc I α} {f : α → Proc I β} (hp : p.Uses P)
    (hf : ∀ value, (f value).Uses P) : (p >>= f).Uses P :=
  Within.bind hp fun value _ => hf value

theorem Uses.reach {P : I.Op → Prop} {p q : Proc I α} {t : List (Event I)} (hp : p.Uses P)
    (hreach : Reach p t q) : ∀ e ∈ t, P e.op :=
  (Within.reach hp hreach).1

/-- What every operation of the program keeps, a run of it keeps. -/
theorem Runs.keeps {P : I.Op → Prop} {J : W → Prop} {p : Proc I α} (hp : p.Uses P)
    (hop : ∀ o w, P o → J w → J (h o w).2) {w w' : W} {value : α} {t : List (Event I)}
    (hruns : Runs h p w value w' t) (hw : J w) : J w' := by
  induction p generalizing w t with
  | ret v =>
      cases hruns
      exact hw
  | op o next ih =>
      rw [Runs, exec_op] at hruns
      cases hruns
      exact ih _ (hp.2 _) rfl (hop o w hp.1 hw)

theorem uses_true (p : Proc I α) : p.Uses fun _ => True := by
  induction p with
  | ret value => trivial
  | op o next ih => exact ⟨trivial, ih⟩

/-- What every operation keeps, a run keeps. -/
theorem Runs.invariant {J : W → Prop} (hop : ∀ o w, J w → J (h o w).2) {p : Proc I α} {w w' : W}
    {value : α} {t : List (Event I)} (hruns : Runs h p w value w' t) (hw : J w) : J w' :=
  hruns.keeps (uses_true p) (fun o w _ => hop o w) hw

/-! ### More operations -/

/-- The program over a larger set of operations: `f` embeds the operations, `g` reads the answers back. -/
def embed {J : Sig} (f : I.Op → J.Op) (g : (o : I.Op) → J.Ans (f o) → I.Ans o) : Proc I α → Proc J α
  | .ret value => .ret value
  | .op o next => .op (f o) fun ans => (next (g o ans)).embed f g

/-- The program with each operation replaced by a program that gives its answer. -/
def expand {J : Sig} (tr : (o : I.Op) → Proc J (I.Ans o)) : Proc I α → Proc J α
  | .ret value => .ret value
  | .op o next => tr o >>= fun ans => (next ans).expand tr

/-- If what stands for an operation shows as that operation alone, what an expanded program shows is a run of
the program itself. -/
theorem Path.of_expand {J : Sig} {tr : (o : I.Op) → Proc J (I.Ans o)} {view : Event J → Option (Event I)}
    (htr : ∀ o t ans, (tr o).Path t ans → t.filterMap view = [⟨o, ans⟩]) {p : Proc I α} {t : List (Event J)}
    {value : α} (hpath : (p.expand tr).Path t value) : p.Path (t.filterMap view) value := by
  induction p generalizing t with
  | ret v =>
      obtain ⟨rfl, rfl⟩ := path_ret_iff.mp hpath
      exact .ret _
  | op o next ih =>
      obtain ⟨t₁, ans, t₂, rfl, hop, hrest⟩ := path_bind_iff.mp hpath
      rw [List.filterMap_append, htr o t₁ ans hop]
      exact .op (ih ans hrest)

/-- The same before the end, if what stands for an operation shows it with its last step. -/
theorem Reach.of_expand {J : Sig} {tr : (o : I.Op) → Proc J (I.Ans o)} {view : Event J → Option (Event I)}
    (htr : ∀ o t q, (tr o).Reach t q →
      t.filterMap view = [] ∧ (∀ ans, q ≠ .ret ans) ∨ ∃ ans, q = .ret ans ∧ t.filterMap view = [⟨o, ans⟩])
    {p : Proc I α} {t : List (Event J)} {q : Proc J α} (hreach : (p.expand tr).Reach t q) :
    ∃ q', p.Reach (t.filterMap view) q' := by
  induction p generalizing t with
  | ret v =>
      obtain ⟨rfl, rfl⟩ := reach_ret_iff.mp hreach
      exact ⟨_, .refl _⟩
  | op o next ih =>
      rcases hreach.bind_cases with ⟨mid, hinside⟩ | ⟨t₁, ans, t₂, rfl, hop, hrest⟩
      · rcases htr o t mid hinside with ⟨hnone, -⟩ | ⟨ans, -, hone⟩
        · rw [hnone]
          exact ⟨_, .refl _⟩
        · rw [hone]
          exact ⟨_, .op (.refl _)⟩
      · rcases htr o t₁ (.ret ans) hop.reach with ⟨-, hbusy⟩ | ⟨_, hans, hone⟩
        · exact absurd rfl (hbusy ans)
        · cases hans
          obtain ⟨q', hq'⟩ := ih ans hrest
          rw [List.filterMap_append, hone]
          exact ⟨q', .op hq'⟩

end Proc

/-! ### Loops -/

/-- A loop: from its state, one turn either gives the next state or leaves with a result. -/
abbrev Loop (I : Sig) (σ ρ : Type) := σ → Proc I (σ ⊕ ρ)

namespace Loop

variable {I : Sig} {σ ρ W : Type} (body : Loop I σ ρ) (h : Handler I W)

/-- Running alone against `h` from state `s`, the loop leaves with the given outcome. -/
inductive Ends : σ → W → Outcome I W ρ → Prop where
  | stop {s : σ} {w w' : W} {r : ρ} {t : List (Event I)}
      (hturn : (body s).exec h w = ⟨.inr r, w', t⟩) : Ends s w ⟨r, w', t⟩
  | turn {s s' : σ} {w w' w'' : W} {r : ρ} {t t' : List (Event I)}
      (hturn : (body s).exec h w = ⟨.inl s', w', t⟩) (hrest : Ends s' w' ⟨r, w'', t'⟩) :
      Ends s w ⟨r, w'', t ++ t'⟩

/-- The loop run for at most `fuel` turns. -/
def exec : Nat → σ → W → Option (Outcome I W ρ)
  | 0, _, _ => none
  | fuel + 1, s, w =>
      match (body s).exec h w with
      | ⟨.inr r, w', t⟩ => some ⟨r, w', t⟩
      | ⟨.inl s', w', t⟩ =>
          match exec fuel s' w' with
          | some out => some ⟨out.value, out.world, t ++ out.trace⟩
          | none => none

variable {body h}

theorem Ends.of_exec {fuel : Nat} {s : σ} {w : W} {out : Outcome I W ρ}
    (hexec : exec body h fuel s w = some out) : Ends body h s w out := by
  induction fuel generalizing s w out with
  | zero => simp [exec] at hexec
  | succ fuel ih =>
      rw [exec] at hexec
      split at hexec
      · next r w' t hturn =>
          cases hexec
          exact .stop hturn
      · next s' w' t hturn =>
          split at hexec
          · next out' hrest =>
              cases hexec
              exact .turn hturn (ih hrest)
          · cases hexec

/-- A loop running alone has one outcome. -/
theorem Ends.unique {s : σ} {w : W} {out out' : Outcome I W ρ}
    (hends : Ends body h s w out) (hends' : Ends body h s w out') : out = out' := by
  induction hends generalizing out' with
  | stop hturn =>
      cases hends' with
      | stop hturn' =>
          rw [hturn] at hturn'
          cases hturn'
          rfl
      | turn hturn' _ => rw [hturn] at hturn'; cases hturn'
  | turn hturn _ ih =>
      cases hends' with
      | stop hturn' => rw [hturn] at hturn'; cases hturn'
      | turn hturn' hrest' =>
          rw [hturn] at hturn'
          cases hturn'
          cases ih hrest'
          rfl

/-- A loop whose turns lower a measure, as long as `J` holds, leaves. -/
theorem ends_of_measure {J : σ → W → Prop} (μ : σ → W → Nat)
    (hturn : ∀ s w s' w' t, J s w → (body s).exec h w = ⟨.inl s', w', t⟩ → J s' w' ∧ μ s' w' < μ s w) {s : σ}
    {w : W} (hJ : J s w) : ∃ out, Ends body h s w out := by
  induction hn : μ s w using Nat.strong_induction_on generalizing s w with
  | _ n ih =>
      rcases hexec : (body s).exec h w with ⟨s' | r, w', t⟩
      · obtain ⟨hJ', hless⟩ := hturn s w s' w' t hJ hexec
        obtain ⟨⟨r, w'', t'⟩, hends⟩ := ih _ (hn ▸ hless) hJ' rfl
        exact ⟨_, .turn hexec hends⟩
      · exact ⟨_, .stop hexec⟩

/-- Running alone from state `s`, the loop comes to a turn in state `s'`, having performed `t`. -/
inductive Comes (body : Loop I σ ρ) (h : Handler I W) : σ → W → List (Event I) → σ → W → Prop where
  | here (s : σ) (w : W) : Comes body h s w [] s w
  | turn {s s₁ s' : σ} {w w₁ w' : W} {t t' : List (Event I)}
      (hturn : (body s).exec h w = ⟨.inl s₁, w₁, t⟩) (hrest : Comes body h s₁ w₁ t' s' w') :
      Comes body h s w (t ++ t') s' w'

/-- An invariant of the loop state, the environment and the history that every turn keeps holds at every
turn the loop comes to. -/
theorem Comes.invariant {J : σ → W → List (Event I) → Prop}
    (hturn : ∀ s w t₀ s₁ w₁ t, J s w t₀ → (body s).exec h w = ⟨.inl s₁, w₁, t⟩ → J s₁ w₁ (t₀ ++ t))
    {s s' : σ} {w w' : W} {t₀ t : List (Event I)} (hJ : J s w t₀) (hcomes : Comes body h s w t s' w') :
    J s' w' (t₀ ++ t) := by
  induction hcomes generalizing t₀ with
  | here s w => rwa [List.append_nil]
  | turn hfirst _ ih =>
      rw [← List.append_assoc]
      exact ih (hturn _ _ _ _ _ _ hJ hfirst)

/-- A loop that ends comes to a last turn. -/
theorem Ends.comes {s : σ} {w : W} {out : Outcome I W ρ} (hends : Ends body h s w out) :
    ∃ s' w' t t', Comes body h s w t s' w' ∧ (body s').exec h w' = ⟨.inr out.value, out.world, t'⟩ ∧
      out.trace = t ++ t' := by
  induction hends with
  | stop hturn => exact ⟨_, _, _, _, .here _ _, hturn, rfl⟩
  | turn hturn _ ih =>
      obtain ⟨s', w', t, t', hcomes, hlast, htrace⟩ := ih
      refine ⟨s', w', _, t', .turn hturn hcomes, hlast, ?_⟩
      rw [List.append_assoc, ← htrace]

/-- Under some answers, the loop comes from state `s` to a turn in state `s'`, having performed `t`. -/
inductive Arrives (body : Loop I σ ρ) : σ → List (Event I) → σ → Prop where
  | here (s : σ) : Arrives body s [] s
  | turn {s s₁ s' : σ} {t t' : List (Event I)} (hturn : (body s).Path t (.inl s₁))
      (hrest : Arrives body s₁ t' s') : Arrives body s (t ++ t') s'

/-- An invariant of the loop state and the history that every turn keeps holds at every turn. -/
theorem Arrives.invariant {J : σ → List (Event I) → Prop}
    (hturn : ∀ s t₀ t s', J s t₀ → (body s).Path t (.inl s') → J s' (t₀ ++ t)) {s s' : σ}
    {t₀ t : List (Event I)} (hJ : J s t₀) (harrives : Arrives body s t s') : J s' (t₀ ++ t) := by
  induction harrives generalizing t₀ with
  | here s => rwa [List.append_nil]
  | turn hfirst _ ih =>
      rw [← List.append_assoc]
      exact ih (hturn _ _ _ _ hJ hfirst)

theorem Comes.arrives {s s' : σ} {w w' : W} {t : List (Event I)} (hcomes : Comes body h s w t s' w') :
    Arrives body s t s' := by
  induction hcomes with
  | here s w => exact .here s
  | turn hturn _ ih => exact .turn (Proc.Runs.path hturn) ih

/-- Every finished run of the loop under any answers. -/
inductive Path (body : Loop I σ ρ) : σ → List (Event I) → ρ → Prop where
  | stop {s : σ} {t : List (Event I)} {r : ρ} (hturn : (body s).Path t (.inr r)) : Path body s t r
  | turn {s s' : σ} {t t' : List (Event I)} {r : ρ} (hturn : (body s).Path t (.inl s'))
      (hrest : Path body s' t' r) : Path body s (t ++ t') r

theorem Ends.path {s : σ} {w : W} {out : Outcome I W ρ} (hends : Ends body h s w out) :
    Path body s out.trace out.value := by
  induction hends with
  | stop hturn => exact .stop (Proc.Runs.path hturn)
  | turn hturn _ ih => exact .turn (Proc.Runs.path hturn) ih

theorem Arrives.path {s s' : σ} {t t' : List (Event I)} {r : ρ} (harrives : Arrives body s t s')
    (hpath : Path body s' t' r) : Path body s (t ++ t') r := by
  induction harrives with
  | here s => exact hpath
  | turn hturn _ ih =>
      rw [List.append_assoc]
      exact .turn hturn (ih hpath)

/-- A run that ends arrives at a last turn. -/
theorem Path.arrives {s : σ} {t : List (Event I)} {r : ρ} (hpath : Path body s t r) :
    ∃ s' t₁ t₂, t = t₁ ++ t₂ ∧ Arrives body s t₁ s' ∧ (body s').Path t₂ (.inr r) := by
  induction hpath with
  | @stop s t r hlast => exact ⟨s, [], t, rfl, .here s, hlast⟩
  | turn hfirst _ ih =>
      obtain ⟨s', t₁, t₂, rfl, harrives, hlast⟩ := ih
      exact ⟨s', _, t₂, (List.append_assoc _ _ _).symm, .turn hfirst harrives, hlast⟩

/-- The rule for loops: an invariant of the loop state and the history that every turn keeps holds at
every turn, and what a last turn makes of it holds at the end. -/
theorem Path.invariant {J : σ → List (Event I) → Prop} {Q : ρ → List (Event I) → Prop}
    (hturn : ∀ s t₀ t x, J s t₀ → (body s).Path t x →
      match x with
      | .inl s' => J s' (t₀ ++ t)
      | .inr r => Q r (t₀ ++ t))
    {s : σ} {t₀ t : List (Event I)} {r : ρ} (hJ : J s t₀) (hpath : Path body s t r) :
    Q r (t₀ ++ t) := by
  induction hpath generalizing t₀ with
  | stop hlast => exact hturn _ _ _ _ hJ hlast
  | turn hfirst _ ih =>
      rw [← List.append_assoc]
      exact ih (hturn _ _ _ _ hJ hfirst)

end Loop

end PulseLink
