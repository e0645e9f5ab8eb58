import PulseLink.BaseAlike
import PulseLink.Reaping

/-! Receive timeouts between packets change nothing a worker shows. Two runs are compared, one on a script
and one on the same script with timeouts inserted; the second takes an extra turn for each of them. Inside
a packet a timeout does change the run: `read_n` forgets the bytes it has. -/

namespace PulseLink

open Bytes

/-! ### Operations that do not depend on the script -/

/-- The connection with other outcomes to come. -/
def Conn.withScript (conn : Conn) (script : List Recv) : Conn := { conn with script := script }

@[simp] theorem Conn.withScript_script (conn : Conn) (script : List Recv) :
    (conn.withScript script).script = script := rfl

@[simp] theorem Conn.withScript_after (conn : Conn) (script : List Recv) :
    (conn.withScript script).after = conn.after := rfl

@[simp] theorem Conn.withScript_withScript (conn : Conn) (script script' : List Recv) :
    (conn.withScript script).withScript script' = conn.withScript script' := rfl

theorem handler_withScript {dev : Option Nat} {o : ServerOp} (ho : Handles dev o) (conn : Conn) (ctx : ServerCtx)
    (script : List Recv) :
    serverHandler o (conn.withScript script, ctx) =
      ((serverHandler o (conn, ctx)).1, (serverHandler o (conn, ctx)).2.1.withScript script,
        (serverHandler o (conn, ctx)).2.2) := by
  cases o with
  | loadRunning => exact ho.elim
  | readN n => exact ho.elim
  | writeFile path bytes =>
      simp only [serverHandler]
      split <;> rfl
  | _ => rfl

/-- A program that receives nothing runs the same whatever is still to come, and leaves it. -/
theorem does_withScript {α : Type} {dev : Option Nat} {p : ServerProc α} (hp : p.Uses (Handles dev))
    {w w' : World} {value : α} {t : List (Event ServerSig)} (hdoes : Does p w value w' t)
    (script : List Recv) :
    Does p (w.1.withScript script, w.2) value (w'.1.withScript script, w'.2) t := by
  let R : World → World → Prop := fun v v' => v' = (v.1.withScript script, v.2)
  have hop : ∀ o v v', Handles dev o → R v v' →
      (serverHandler o v').1 = (serverHandler o v).1 ∧ R (serverHandler o v).2 (serverHandler o v').2 := by
    rintro o v v' ho rfl
    rw [handler_withScript ho v.1 v.2 script]
    exact ⟨rfl, rfl⟩
  obtain ⟨value', w₁', hruns, rfl, rfl⟩ := (Proc.Twin.refl p).runs (R := R) hop hp rfl hdoes
  exact hruns

/-! ### Comparing two workers -/

/-- Receiving is not seen. -/
def shown : ServerOp → Bool
  | .loadRunning => false
  | .readN _ => false
  | _ => true

/-- Everything is the same but the timeouts inserted into what is still to come. -/
def SameButTicks (w w' : World) : Prop := ∃ conn ms ctx,
  w = (Conn.withScript conn (original ms), ctx) ∧ w' = (Conn.withScript conn (ticked ms), ctx)

/-- Two workers that end alike. -/
abbrev AlikeWorkers (cfg : Config) (pc : WorkerPc) (w : World) (pc' : WorkerPc) (w' : World) : Prop :=
  Alike shown serverHandler SameButTicks (clientWorker cfg) (clientWorker cfg) pc w pc' w'

section Workers

variable {cfg : Config} {conn : Conn} {ctx : ServerCtx} {script script' : List Recv} {ms : Marked}

theorem does_leave (cfg : Config) (why : ExitReason) (conn : Conn) (ctx : ServerCtx) :
    ∃ conn' ctx' t, Does (clientWorker cfg (.leave why)) (conn, ctx) (.inr why) (conn', ctx') t :=
  ⟨_, _, _, rfl⟩

theorem alike_leave (why : ExitReason) :
    AlikeWorkers cfg (.leave why) (conn.withScript (original ms), ctx) (.leave why)
      (conn.withScript (ticked ms), ctx) := by
  obtain ⟨conn', ctx', t, hdoes⟩ := does_leave cfg why conn ctx
  have hhandles := (leave_plain cfg why).acts.handles
  exact .stop (does_withScript hhandles hdoes (original ms)) (does_withScript hhandles hdoes (ticked ms))
    rfl ⟨conn', ms, ctx', rfl, rfl⟩

/-- Two turns with the same result, after which both workers end alike. -/
theorem alike_turn {l l' : Locals} {w w' : World} {turn : Turn} {pre pre' t : List (Event ServerSig)}
    (hturn : Does (clientTurn cfg l) w turn (conn.withScript (original ms), ctx) (pre ++ t))
    (hturn' : Does (clientTurn cfg l') w' turn (conn.withScript (ticked ms), ctx) (pre' ++ t))
    (hpre : visible shown pre = visible shown pre')
    (hrest : ∀ l₁, turn = .inl l₁ →
      AlikeWorkers cfg (.running l₁) (conn.withScript (original ms), ctx) (.running l₁)
        (conn.withScript (ticked ms), ctx)) :
    AlikeWorkers cfg (.running l) w (.running l') w' := by
  have hvisible : visible shown (pre ++ t) = visible shown (pre' ++ t) := by
    rw [visible_append, visible_append, hpre]
  have hrun := does_running hturn
  have hrun' := does_running hturn'
  cases turn with
  | inl l₁ => exact .turn hrun hrun' hvisible (hrest l₁ rfl)
  | inr why =>
      cases why with
      | crash => exact .stop hrun hrun' hvisible ⟨conn, ms, ctx, rfl, rfl⟩
      | _ => exact .turn hrun hrun' hvisible (alike_leave _)

/-- Two turns that come to the same program once they have received, which receives no more. -/
theorem alike_decided {dev : Option Nat} {p : ServerProc Turn} (hp : p.Uses (Handles dev)) {l l' : Locals}
    {w w' : World} {pre pre' : List (Event ServerSig)} (hstop : ctx.choices.stop = none)
    (hturn : ∀ {turn v t}, Does p (conn.withScript (original ms), ctx) turn v t →
      Does (clientTurn cfg l) w turn v (pre ++ t))
    (hturn' : ∀ {turn v t}, Does p (conn.withScript (ticked ms), ctx) turn v t →
      Does (clientTurn cfg l') w' turn v (pre' ++ t))
    (hpre : visible shown pre = visible shown pre')
    (hrest : ∀ (l₁ : Locals) (conn₁ : Conn) (ctx₁ : ServerCtx) (t : List (Event ServerSig)),
      p.Path t (.inl l₁) → conn₁.after = conn.after → ctx₁.choices.stop = none →
      AlikeWorkers cfg (.running l₁) (conn₁.withScript (original ms), ctx₁) (.running l₁)
        (conn₁.withScript (ticked ms), ctx₁)) :
    AlikeWorkers cfg (.running l) w (.running l') w' := by
  obtain ⟨turn, ⟨conn₁, ctx₁⟩, t, hdoes⟩ : ∃ turn v t, Does p (conn, ctx) turn v t := ⟨_, _, _, rfl⟩
  have hafter : conn₁.after = conn.after :=
    hdoes.invariant (J := fun w => w.1.after = conn.after) (fun o _ => after_step o) rfl
  have hrunning : (conn, ctx).2.choices.stop = none := hstop
  have hstop₁ : ctx₁.choices.stop = none := stop_runs hrunning hdoes
  refine alike_turn (hturn (does_withScript hp hdoes (original ms)))
    (hturn' (does_withScript hp hdoes (ticked ms))) hpre ?_
  rintro l₁ rfl
  exact hrest l₁ conn₁ ctx₁ t hdoes.path hafter hstop₁

/-- A timeout that is not the last the worker waits for. -/
theorem turn_tick {l : Locals} (hstop : ctx.choices.stop = none) (hstate : l.state ≠ .closing)
    {bs : List UInt8} {rest : List Recv}
    (hread : readN conn.after PL_HDR_SIZE [] script = (.again bs, rest))
    (hfew : (l.idleTicks + 1) * WORKER_TICK_S < DEAD_PEER_S) :
    Does (clientTurn cfg l) (conn.withScript script, ctx) (.inl { l with idleTicks := l.idleTicks + 1 })
      (conn.withScript rest, ctx) [⟨.loadRunning, true⟩, ⟨.readN PL_HDR_SIZE, .again bs⟩] := by
  refine turn_read cfg l hstop hstate hread ?_
  rw [afterRead, if_neg (Nat.not_le.mpr hfew)]
  exact .ret _ _

/-- The last one. -/
theorem turn_idle {l : Locals} (hstop : ctx.choices.stop = none) (hstate : l.state ≠ .closing)
    {bs : List UInt8} {rest : List Recv}
    (hread : readN conn.after PL_HDR_SIZE [] script = (.again bs, rest))
    (hlate : (l.idleTicks + 1) * WORKER_TICK_S ≥ DEAD_PEER_S) :
    Does (clientTurn cfg l) (conn.withScript script, ctx) (.inr .idle) (conn.withScript rest, ctx)
      [⟨.loadRunning, true⟩, ⟨.readN PL_HDR_SIZE, .again bs⟩] := by
  refine turn_read cfg l hstop hstate hread ?_
  rw [afterRead, if_pos hlate]
  exact .ret _ _

/-- A worker for which nothing but timeouts is left comes to leave its loop as idle. -/
theorem alike_waiting {R : World → World → Prop} {pc : WorkerPc} {w : World} {l : Locals}
    (hstop : ctx.choices.stop = none) (hstate : l.state ≠ .closing) (hafter : conn.after = .eagain)
    {left : List Recv} {bs : List UInt8} (hread : readN conn.after PL_HDR_SIZE [] left = (.again bs, []))
    (hleave : Alike shown serverHandler R (clientWorker cfg) (clientWorker cfg) pc w (.leave .idle)
      (conn.withScript [], ctx)) :
    Alike shown serverHandler R (clientWorker cfg) (clientWorker cfg) pc w (.running l)
      (conn.withScript left, ctx) := by
  by_cases hlate : (l.idleTicks + 1) * WORKER_TICK_S ≥ DEAD_PEER_S
  · exact .right (does_running (turn_idle hstop hstate hread hlate)) rfl hleave
  · have hagain : readN conn.after PL_HDR_SIZE [] [] = (.again [], []) := by rw [hafter]; rfl
    exact .right (does_running (turn_tick hstop hstate hread (Nat.not_le.mp hlate))) rfl
      (alike_waiting (l := { l with idleTicks := l.idleTicks + 1 }) hstop hstate hafter hagain hleave)
termination_by DEAD_PEER_S - l.idleTicks
decreasing_by
  rw [WORKER_TICK_S] at hlate
  show DEAD_PEER_S - (l.idleTicks + 1) < DEAD_PEER_S - l.idleTicks
  omega

theorem alike_idle {l l' : Locals} (hstop : ctx.choices.stop = none) (hstate : l.state ≠ .closing)
    (hstate' : l'.state ≠ .closing) (hafter : conn.after = .eagain) {bs : List UInt8}
    (hread : readN conn.after PL_HDR_SIZE [] script = (.again bs, []))
    (hread' : readN conn.after PL_HDR_SIZE [] script' = (.again bs, [])) :
    AlikeWorkers cfg (.running l) (conn.withScript script, ctx) (.running l')
      (conn.withScript script', ctx) := by
  have hleave : AlikeWorkers cfg (.leave .idle) (conn.withScript [], ctx) (.leave .idle)
      (conn.withScript [], ctx) := @alike_leave cfg conn ctx [] .idle
  have hright := alike_waiting hstop hstate' hafter hread' hleave
  have hleft : Alike shown serverHandler (fun v v' => SameButTicks v' v) (clientWorker cfg) (clientWorker cfg)
      (.running l') (conn.withScript script', ctx) (.leave .idle) (conn.withScript [], ctx) := hright.symm id
  exact (alike_waiting hstop hstate hafter hread hleft).symm id

/-! ### Turn by turn -/

theorem alike_closing {l l' : Locals} (hstop : ctx.choices.stop = none) (hstate : l.state = .closing)
    (hstate' : l'.state = .closing) :
    AlikeWorkers cfg (.running l) (conn.withScript (original ms), ctx) (.running l')
      (conn.withScript (ticked ms), ctx) := by
  have hturn : ∀ (l : Locals) (script : List Recv), l.state = .closing →
      Does (clientTurn cfg l) (conn.withScript script, ctx) (.inr .closing) (conn.withScript script, ctx)
        ([⟨.loadRunning, true⟩] ++ []) := fun l script hstate => turn_closing hstop hstate
  exact alike_turn (hturn l _ hstate) (hturn l' _ hstate') rfl nofun

/-- Both workers read the same and leave the loop. -/
theorem alike_ends {l l' : Locals} (hstop : ctx.choices.stop = none) (hstate : l.state ≠ .closing)
    (hstate' : l'.state ≠ .closing) {result : ReadResult}
    (hread : readN conn.after PL_HDR_SIZE [] script = (result, original ms))
    (hread' : readN conn.after PL_HDR_SIZE [] script' = (result, ticked ms))
    (hend : (∃ bs, result = .count bs ∧ bs.length < PL_HDR_SIZE) ∨ ∃ bs, result = .failed bs) :
    AlikeWorkers cfg (.running l) (conn.withScript script, ctx) (.running l')
      (conn.withScript script', ctx) := by
  obtain ⟨why, hwhy⟩ : ∃ why, ∀ l, afterRead cfg l result = .ret (.inr why) := by
    rcases hend with ⟨bs, rfl, hshort⟩ | ⟨bs, rfl⟩
    · by_cases hzero : bs.length = 0
      · exact ⟨.closed, fun l => by rw [afterRead, if_pos hzero]; rfl⟩
      · exact ⟨.midHeader, fun l => by rw [afterRead, if_neg hzero, if_pos hshort.ne]; rfl⟩
    · exact ⟨.recvError, fun l => rfl⟩
  have hturn : ∀ (l : Locals) (script rest : List Recv), l.state ≠ .closing →
      readN conn.after PL_HDR_SIZE [] script = (result, rest) →
      Does (clientTurn cfg l) (conn.withScript script, ctx) (.inr why) (conn.withScript rest, ctx)
        ([⟨.loadRunning, true⟩, ⟨.readN PL_HDR_SIZE, result⟩] ++ []) := by
    intro l script rest hstate hread
    refine turn_read cfg l hstop hstate hread ?_
    rw [hwhy]
    exact .ret _ _
  exact alike_turn (hturn l script _ hstate hread) (hturn l' script' _ hstate' hread') rfl (by simp)

/-- A turn that has read a whole header. -/
theorem turn_count {l : Locals} (hstop : ctx.choices.stop = none) (hstate : l.state ≠ .closing)
    {hdr : List UInt8} (hlen : hdr.length = PL_HDR_SIZE) {rest : List Recv}
    (hread : readN conn.after PL_HDR_SIZE [] script = (.count hdr, rest)) {turn : Turn} {w : World}
    {t : List (Event ServerSig)}
    (hdoes : Does (handleHeader cfg { l with idleTicks := 0 } (plParseHeader cfg.host hdr))
      (conn.withScript rest, ctx) turn w t) :
    Does (clientTurn cfg l) (conn.withScript script, ctx) turn w
      ([⟨.loadRunning, true⟩, ⟨.readN PL_HDR_SIZE, .count hdr⟩] ++ t) := by
  refine turn_read cfg l hstop hstate hread ?_
  rw [afterRead, if_neg (by rw [hlen]; decide), if_neg (fun hne => hne hlen)]
  exact hdoes

/-- A payload that does not arrive whole. -/
theorem handleHeader_short {l : Locals} {h : PlHeader} (hcheck : checkHeader h = none)
    {result : ReadResult} {rest : List Recv}
    (hread : readN conn.after h.payloadLen.toNat [] script = (result, rest))
    (hend : ∀ bs, result = .count bs → bs.length ≠ h.payloadLen.toNat) :
    Does (handleHeader cfg l h) (conn.withScript script, ctx) (.inr .midPayload)
      (conn.withScript rest, ctx) [⟨.readN h.payloadLen.toNat, result⟩] := by
  have hpos : h.payloadLen > 0 := by
    rw [gt_iff_lt, UInt16.lt_iff_toNat_lt]
    refine Nat.pos_of_ne_zero fun hzero => ?_
    have hzero' : h.payloadLen.toNat = 0 := hzero
    rw [hzero', readN_full conn.after 0 (Nat.zero_le _)] at hread
    exact hend [] (Prod.mk.inj hread).1.symm hzero'.symm
  have hop : serverHandler (.readN h.payloadLen.toNat) (conn.withScript script, ctx) =
      (result, conn.withScript rest, ctx) := by
    simp only [serverHandler, Conn.withScript_script, Conn.withScript_after, hread]
    rfl
  rw [handleHeader, hcheck]
  simp only [recvPayload]
  rw [if_pos hpos]
  refine .perform hop ?_
  cases result with
  | count bs =>
      simp only [if_neg (hend bs rfl)]
      exact .ret _ _
  | again bs => exact .ret _ _
  | failed bs => exact .ret _ _

theorem payloadRead_header {after : Afterwards} {hdr : List UInt8} {ms : Marked}
    (hfits : Fits cfg.host ⟨.afterHeader cfg.host hdr, 0⟩ ms)
    (hcheck : checkHeader (plParseHeader cfg.host hdr) = none) :
    PayloadRead cfg.host after (plParseHeader cfg.host hdr).payloadLen.toNat [] 0 ms := by
  simp only [Phase.afterHeader, hcheck, true_and] at hfits
  by_cases hpos : (plParseHeader cfg.host hdr).payloadLen > 0
  · rw [if_pos hpos] at hfits
    rw [gt_iff_lt, UInt16.lt_iff_toNat_lt] at hpos
    exact payloadRead (Nat.zero_add _).symm hpos hfits
  · rw [if_neg hpos] at hfits
    rw [gt_iff_lt, UInt16.lt_iff_toNat_lt] at hpos
    have hzero : (plParseHeader cfg.host hdr).payloadLen.toNat = 0 := Nat.eq_zero_of_not_pos hpos
    rw [hzero]
    exact .full [] ms rfl (readN_full _ _ (Nat.zero_le _) _) (readN_full _ _ (Nat.zero_le _) _) hfits le_rfl

/-- What is claimed of a marked script: a worker at the top of its loop that reads on from the script
without the timeouts, and one that has seen `b` of them and reads on from the script with them, end
alike. -/
def Transparent (cfg : Config) (ms : Marked) : Prop :=
  ∀ (l : Locals) (conn : Conn) (ctx : ServerCtx) (script : List Recv) (a b : Nat), a ≤ b →
    ctx.choices.stop = none → (l.state = .closing → script = original ms) →
    readN conn.after PL_HDR_SIZE [] script = readN conn.after PL_HDR_SIZE [] (original ms) →
    Fits cfg.host ⟨.header [], b⟩ ms →
    AlikeWorkers cfg (.running { l with idleTicks := a }) (conn.withScript script, ctx)
      (.running { l with idleTicks := b }) (conn.withScript (ticked ms), ctx)

/-- After a decision no tick is counted. -/
theorem Transparent.decided {ms : Marked} (htransparent : Transparent cfg ms)
    (hfits : Fits cfg.host ⟨.header [], 0⟩ ms) {l : Locals} (hticks : l.idleTicks = 0)
    (hstop : ctx.choices.stop = none) :
    AlikeWorkers cfg (.running l) (conn.withScript (original ms), ctx) (.running l)
      (conn.withScript (ticked ms), ctx) := by
  have hl : l = { l with idleTicks := 0 } := by rw [← hticks]
  rw [hl]
  exact htransparent l conn ctx _ 0 0 le_rfl hstop (fun _ => rfl) rfl hfits

/-- Both workers have read the same header. -/
theorem alike_header {l : Locals} {a b : Nat} (hstop : ctx.choices.stop = none) (hstate : l.state ≠ .closing)
    {hdr : List UInt8} {ms : Marked} (hlen : hdr.length = PL_HDR_SIZE)
    (hread : readN conn.after PL_HDR_SIZE [] script = (.count hdr, original ms))
    (hread' : readN conn.after PL_HDR_SIZE [] script' = (.count hdr, ticked ms))
    (hfits : Fits cfg.host ⟨.afterHeader cfg.host hdr, 0⟩ ms)
    (hrest : ∀ ms₀, scriptSize (ticked ms₀) ≤ scriptSize (ticked ms) → Transparent cfg ms₀) :
    AlikeWorkers cfg (.running { l with idleTicks := a }) (conn.withScript script, ctx)
      (.running { l with idleTicks := b }) (conn.withScript script', ctx) := by
  have hturn : ∀ (k : Nat) {script rest : List Recv},
      readN conn.after PL_HDR_SIZE [] script = (.count hdr, rest) → ∀ {turn w t},
      Does (handleHeader cfg { l with idleTicks := 0 } (plParseHeader cfg.host hdr))
        (conn.withScript rest, ctx) turn w t →
      Does (clientTurn cfg { l with idleTicks := k }) (conn.withScript script, ctx) turn w
        ([⟨.loadRunning, true⟩, ⟨.readN PL_HDR_SIZE, .count hdr⟩] ++ t) :=
    fun k _ _ hread _ _ _ hdoes => turn_count (l := { l with idleTicks := k }) hstop hstate hlen hread hdoes
  cases hcheck : checkHeader (plParseHeader cfg.host hdr) with
  | some e =>
      have hfits₀ : Fits cfg.host ⟨.header [], 0⟩ ms := by
        simpa only [Phase.afterHeader, hcheck, reduceCtorEq, false_and, if_false] using hfits
      have hstrike : handleHeader cfg { l with idleTicks := 0 } (plParseHeader cfg.host hdr) =
          strikeOut cfg { l with idleTicks := 0 } (plParseHeader cfg.host hdr) e := by
        rw [handleHeader, hcheck]
      rw [hstrike] at hturn
      refine alike_decided (strikeOut_handles cfg _ _ e) hstop (hturn a hread) (hturn b hread') rfl ?_
      intro l₁ conn₁ ctx₁ t hpath hafter₁ hstop₁
      exact (hrest ms le_rfl).decided hfits₀ (Decides.idleTicks (Or.inl ⟨e, hpath⟩)) hstop₁
  | none =>
      rcases @payloadRead_header cfg conn.after hdr ms hfits hcheck with
        ⟨bs, ms₀, hbs, hpay, hpay', hfits₀, hsize⟩ | ⟨result, ms₀, hpay, hpay', hend⟩
      · have hpacket : ∀ (k : Nat) {script rest rest' : List Recv},
            readN conn.after PL_HDR_SIZE [] script = (.count hdr, rest) →
            readN conn.after (plParseHeader cfg.host hdr).payloadLen.toNat [] rest = (.count bs, rest') →
            ∀ {turn w t}, Does (checkPayload cfg (l.heard (l.payload.fill bs)) (plParseHeader cfg.host hdr))
              (conn.withScript rest', ctx) turn w t →
            Does (clientTurn cfg { l with idleTicks := k }) (conn.withScript script, ctx) turn w
              (([⟨.loadRunning, true⟩, ⟨.readN PL_HDR_SIZE, .count hdr⟩] ++ payloadEvents bs) ++ t) := by
          intro k script rest rest' hread hpay turn w t hdoes
          rw [List.append_assoc]
          exact hturn k hread (handleHeader_payload cfg _ hcheck hpay hbs hdoes)
        refine alike_decided (checkPayload_handles cfg _ _) hstop (hpacket a hread hpay)
          (hpacket b hread' hpay') rfl ?_
        intro l₁ conn₁ ctx₁ t hpath hafter₁ hstop₁
        exact (hrest ms₀ hsize).decided hfits₀ (checkPayload_path hpath).idleTicks hstop₁
      · exact alike_turn (hturn a hread (handleHeader_short hcheck hpay hend))
          (hturn b hread' (handleHeader_short hcheck hpay' hend)) rfl (by simp)

theorem transparent (ms : Marked) : Transparent cfg ms := by
  induction hn : scriptSize (ticked ms) using Nat.strong_induction_on generalizing ms with
  | _ n ih =>
  subst hn
  intro l conn ctx script a b hab hstop hclosing hsame hfits
  by_cases hstate : l.state = .closing
  · rw [hclosing hstate]
    exact alike_closing hstop hstate hstate
  -- the second worker's header read, whose cases are those of both reads
  cases @headerRead cfg.host conn.after [] (by decide) b ms hfits with
  | tick ms₀ _ hread hread' hfew hfits₀ hsize =>
      refine .right (does_running (turn_tick (l := { l with idleTicks := b }) hstop hstate hread' hfew)) rfl ?_
      exact ih _ hsize ms₀ rfl l conn ctx script a (b + 1) (by omega) hstop (fun h => absurd h hstate)
        (hsame.trans hread) hfits₀
  | full hdr ms₀ hlen hread hread' hfits₀ hsize =>
      exact alike_header hstop hstate hlen (hsame.trans hread) hread' hfits₀
        fun ms₁ hsize₁ => ih _ (hsize₁.trans_lt hsize) ms₁ rfl
  | lost bs ms₀ hread hread' hfew hfits₀ hsize =>
      have hfew' : (a + 1) * WORKER_TICK_S < DEAD_PEER_S := by
        rw [WORKER_TICK_S] at hfew ⊢
        omega
      refine .turn (does_running (turn_tick (l := { l with idleTicks := a }) hstop hstate
          (hsame.trans hread) hfew'))
        (does_running (turn_tick (l := { l with idleTicks := b }) hstop hstate hread' hfew)) rfl ?_
      exact ih _ hsize ms₀ rfl l conn ctx _ (a + 1) (b + 1) (by omega) hstop (fun _ => rfl) rfl hfits₀
  | idle bs hafter hread hread' =>
      exact alike_idle hstop hstate hstate hafter (hsame.trans hread) hread'
  | ends result ms₀ hread hread' hend =>
      exact alike_ends hstop hstate hstate (hsame.trans hread) hread' hend

end Workers

/-! ### Whole runs -/

/-- Two runs show the same: the packets decoded with their verdicts, the records passed to the sink and the
replies. -/
structure ShowsSame (t t' : List (Event ServerSig)) : Prop where
  packets : packetsOf t' = packetsOf t
  records : recordsOf t' = recordsOf t
  replies : repliesOf t' = repliesOf t

theorem showsSame_of_visible {t t' : List (Event ServerSig)} (hvisible : visible shown t = visible shown t') :
    ShowsSame t t' := by
  have hsame : ∀ {α : Type} {f : Event ServerSig → Option α}, (∀ e, shown e.op = false → f e = none) →
      t'.filterMap f = t.filterMap f := by
    intro α f hf
    rw [← filterMap_visible hf t, hvisible, filterMap_visible hf t']
  have hhidden : ∀ e : Event ServerSig, shown e.op = false →
      packetOf e = none ∧ recordOf e = none ∧ replyOf e = none := by
    rintro ⟨o, ans⟩ ho
    cases o <;> first | exact ⟨rfl, rfl, rfl⟩ | cases ho
  exact ⟨hsame fun e he => (hhidden e he).1, hsame fun e he => (hhidden e he).2.1,
    hsame fun e he => (hhidden e he).2.2⟩

/-! ### What is never read -/

/-- A read comes to its end within the first part of the script, or takes something off the second. -/
theorem readN_append (after : Afterwards) (n : Nat) (got : List UInt8) (script : List Recv) :
    (∃ result script', ∀ rest, readN after n got (script ++ rest) = (result, script' ++ rest)) ∨
      ∀ rest, rest ≠ [] → scriptSize (readN after n got (script ++ rest)).2 < scriptSize rest := by
  induction script generalizing got with
  | nil =>
      by_cases hgot : got.length < n
      · refine Or.inr fun rest hrest => ?_
        obtain ⟨x, rest, rfl⟩ := List.exists_cons_of_ne_nil hrest
        exact readN_uses after hgot x rest
      · exact Or.inl ⟨.count got, [], fun rest => readN_full after n (Nat.le_of_not_lt hgot) rest⟩
  | cons x script ih =>
      by_cases hgot : got.length < n
      · cases x with
        | eintr =>
            simp only [List.cons_append, readN, if_pos hgot]
            exact ih got
        | data b bs =>
            by_cases hfits : got.length + (b :: bs).length ≤ n
            · simp only [List.cons_append, readN, if_pos hgot, if_pos hfits]
              exact ih (got ++ b :: bs)
            · simp only [List.cons_append, readN, if_pos hgot, if_neg hfits, ← unread_append]
              exact Or.inl ⟨_, _, fun rest => rfl⟩
        | _ =>
            simp only [List.cons_append, readN, if_pos hgot]
            exact Or.inl ⟨_, script, fun rest => rfl⟩
      · exact Or.inl ⟨.count got, x :: script, fun rest => readN_full after n (Nat.le_of_not_lt hgot) _⟩

/-- The same world with something else at the end of the script. -/
def SameButRest (rest rest' : List Recv) (w w' : World) : Prop :=
  ∃ script, w.1.script = script ++ rest ∧ w' = (w.1.withScript (script ++ rest'), w.2)

theorem SameButRest.step {rest rest' : List Recv} (hrest : rest ≠ []) (o : ServerOp) {w w' : World}
    (hsame : SameButRest rest rest' w w') :
    ((serverHandler o w').1 = (serverHandler o w).1 ∧
        SameButRest rest rest' (serverHandler o w).2 (serverHandler o w').2) ∨
      scriptSize (serverHandler o w).2.1.script < scriptSize rest := by
  obtain ⟨conn, ctx⟩ := w
  obtain ⟨script, hscript, rfl⟩ := hsame
  have hscript' : conn.script = script ++ rest := hscript
  cases o with
  | readN n =>
      rcases readN_append conn.after n [] script with ⟨result, script', hread⟩ | hinto
      · refine Or.inl ?_
        simp only [serverHandler, Conn.withScript_script, Conn.withScript_after, hscript', hread, true_and]
        exact ⟨script', rfl, rfl⟩
      · refine Or.inr ?_
        simp only [serverHandler, hscript']
        exact hinto rest hrest
  | writeFile path bytes =>
      refine Or.inl ?_
      simp only [serverHandler]
      split <;> exact ⟨rfl, script, hscript', rfl⟩
  | _ => exact Or.inl ⟨rfl, script, hscript', rfl⟩

/-- A worker that leaves without having read `rest` does the same with anything else in its place. -/
theorem ends_unread {cfg : Config} {pc : WorkerPc} {conn : Conn} {ctx : ServerCtx} {script rest : List Recv}
    {out : Outcome ServerSig World ExitReason} (hrest : rest ≠ [])
    (hends : Loop.Ends (clientWorker cfg) serverHandler pc (conn.withScript (script ++ rest), ctx) out)
    (hunread : rest <:+ out.world.1.script) (rest' : List Recv) :
    ∃ w', Loop.Ends (clientWorker cfg) serverHandler pc (conn.withScript (script ++ rest'), ctx)
      ⟨out.value, w', out.trace⟩ ∧ SameButRest rest rest' out.world w' := by
  have hsame : SameButRest rest rest' (conn.withScript (script ++ rest), ctx)
      (conn.withScript (script ++ rest'), ctx) := ⟨script, rfl, rfl⟩
  refine (hends.transfer (R := SameButRest rest rest')
    (B := fun w => scriptSize w.1.script < scriptSize rest) ?_ ?_ hsame).resolve_left ?_
  · exact fun o w w' hsame => hsame.step hrest o
  · exact fun o w hless => (scriptSize_step o w).trans_lt hless
  · obtain ⟨before, hbefore⟩ := hunread
    rw [← hbefore, scriptSize, List.map_append, List.sum_append]
    exact Nat.not_lt.mpr (Nat.le_add_left _ _)

/-- A marked script all of which may be read: the two runs, and what is left of it at their ends. -/
theorem runs_transparent (cfg : Config) (payload : PayloadBuf) (conn : Conn) {ctx : ServerCtx}
    (hstop : ctx.choices.stop = none) {ms : Marked} (hfits : Fits cfg.host ⟨.header [], 0⟩ ms) :
    ∃ why w w' t t', Loop.Ends (clientWorker cfg) serverHandler (.enter payload)
        (conn.withScript (original ms), ctx) ⟨why, w, t⟩ ∧
      Loop.Ends (clientWorker cfg) serverHandler (.enter payload)
        (conn.withScript (ticked ms), ctx) ⟨why, w', t'⟩ ∧
      ShowsSame t t' ∧ SameButTicks w w' := by
  have halike : AlikeWorkers cfg (.enter payload) (conn.withScript (original ms), ctx) (.enter payload)
      (conn.withScript (ticked ms), ctx) :=
    .turn rfl rfl rfl (transparent ms (.init payload) conn _ _ 0 0 le_rfl hstop (fun _ => rfl) rfl hfits)
  obtain ⟨why, w, w', t, t', hends, hends', hvisible, hsame⟩ := halike
  exact ⟨why, w, w', t, t', hends, hends', showsSame_of_visible hvisible, hsame⟩

/-- One more outcome of the script itself that is no timeout. -/
theorem Fits.concat {host : Endian} {r : Reader} {ms : Marked} {x : Recv} (hx : x ≠ .eagain) (hfits : Fits host r ms) :
    Fits host r (ms ++ [some x]) := by
  induction ms generalizing r with
  | nil => exact ⟨trivial, fun heq => absurd heq hx, trivial⟩
  | cons m ms ih =>
      cases m with
      | none =>
          obtain ⟨⟨hphase, hbetween⟩, hfew, hlater⟩ := hfits
          obtain ⟨hbetween', hlater'⟩ := ih ⟨hbetween, hlater⟩
          exact ⟨⟨hphase, hbetween'⟩, hfew, hlater'⟩
      | some y =>
          obtain ⟨hbetween', hlater'⟩ := ih hfits.tail
          exact ⟨hbetween', hfits.few.1, hlater'⟩

theorem ticked_eq_concat {ms : Marked} {script : List Recv} {x : Recv} (hx : x ≠ .eagain)
    (hticked : ticked ms = script ++ [x]) : ∃ ms₀, ms = ms₀ ++ [some x] := by
  obtain ⟨ms₀, last, rfl, -, hlast⟩ := List.map_eq_append_iff.mp hticked
  obtain ⟨m, rfl, hm⟩ := List.map_eq_singleton_iff.mp hlast
  cases m with
  | none => exact absurd hm.symm hx
  | some y =>
      cases hm
      exact ⟨ms₀, rfl⟩

/-- **Timeouts between packets are transparent.** Into any script of outcomes, timeouts are inserted. As far as the
worker reads the script before it leaves, they come where no byte of the next packet has been read, with fewer than
`DEAD_PEER_S / WORKER_TICK_S` timeouts after each complete header; the `rest`, which it leaves unread, is arbitrary.
The worker decodes the same packets, writes the same records, sends the same replies and leaves for the same
reason. -/
theorem ticks_between_packets_transparent (cfg : Config) (payload : PayloadBuf) (conn : Conn)
    {ctx : ServerCtx} (hstop : ctx.choices.stop = none) {ms : Marked} (rest : Marked)
    (hbetween : BetweenPackets cfg.host ⟨.header [], 0⟩ ms)
    (hfew : FewTicks cfg.host ⟨.header [], 0⟩ (ticked ms)) :
    ∃ why why' w w' t t', Loop.Ends (clientWorker cfg) serverHandler (.enter payload)
        (conn.withScript (original (ms ++ rest)), ctx) ⟨why, w, t⟩ ∧
      Loop.Ends (clientWorker cfg) serverHandler (.enter payload)
        (conn.withScript (ticked (ms ++ rest)), ctx) ⟨why', w', t'⟩ ∧
      (ticked rest <:+ w'.1.script →
        why' = why ∧ ShowsSame t t' ∧ w'.2 = w.2 ∧ w'.1.sent = w.1.sent) := by
  obtain ⟨⟨why, w, t⟩, hends⟩ :=
    @worker_ends cfg (.enter payload) (conn.withScript (original (ms ++ rest)), ctx) hstop
  obtain ⟨⟨why', w', t'⟩, hends'⟩ :=
    @worker_ends cfg (.enter payload) (conn.withScript (ticked (ms ++ rest)), ctx) hstop
  refine ⟨why, why', w, w', t, t', hends, hends', fun hunread => ?_⟩
  by_cases hnil : rest = []
  · subst hnil
    rw [List.append_nil] at hends hends'
    obtain ⟨why₀, w₀, w₀', t₀, t₀', hends₀, hends₀', hshows, conn₀, ms₀, ctx₀, rfl, rfl⟩ :=
      runs_transparent cfg payload conn hstop ⟨hbetween, hfew⟩
    cases hends.unique hends₀
    cases hends'.unique hends₀'
    exact ⟨rfl, hshows, rfl, rfl⟩
  -- an error in the place of the rest: no run comes to it, so the two runs are those on the marked script
  rw [ticked_append] at hends'
  rw [original_append] at hends
  have hrest : ticked rest ≠ [] := fun hempty => hnil (List.map_eq_nil_iff.mp hempty)
  obtain ⟨w₁', hends₁', script₁, hscript₁, hw₁'⟩ := ends_unread hrest hends' hunread [.error]
  obtain ⟨why₀, w₀, w₀', t₀, t₀', hends₀, hends₀', hshows, conn₀, ms₀, ctx₀, rfl, rfl⟩ :=
    runs_transparent cfg payload conn hstop (Fits.concat (x := .error) (by decide) ⟨hbetween, hfew⟩)
  rw [ticked_append] at hends₀'
  rw [original_append] at hends₀
  cases hends₁'.unique hends₀'
  have hctx : ctx₀ = w'.2 := congrArg Prod.snd hw₁'
  have hconn : conn₀.withScript (ticked ms₀) = w'.1.withScript (script₁ ++ [.error]) := congrArg Prod.fst hw₁'
  obtain ⟨ms₁, rfl⟩ := ticked_eq_concat (x := .error) (by decide) (congrArg Conn.script hconn)
  have hleft : [Recv.error] <:+ original (ms₁ ++ [some .error]) :=
    ⟨original ms₁, (original_append ms₁ [some .error]).symm⟩
  obtain ⟨w₂, hends₂, script₂, -, rfl⟩ := ends_unread (by simp) hends₀ hleft (original rest)
  cases hends.unique hends₂
  exact ⟨rfl, hshows, hctx.symm, (congrArg Conn.sent hconn).symm⟩

/-- A HELLO and one reading in two arrivals, with a timeout inserted after the first `i` of the 48 bytes. -/
def tickAt (i : Nat) : Marked :=
  keep (oneReadingStream.take i) (none :: keep (oneReadingStream.drop i) [])

/-- A timeout between a HELLO and a reading, behind which come three packets of zeros. -/
def tickThenZeros : Marked :=
  keep (oneReadingStream.take 20) (none :: keep (oneReadingStream.drop 20 ++ List.replicate 36 0) [])

/-- The zeros end the connection, so a timeout inside the packet behind them is not read. -/
def midPacketTick : Marked := keep [0x50, 0x4C, 1] [none]

theorem tickThenZeros_leaves : (Loop.exec (clientWorker ⟨.little, none⟩) serverHandler 20 (.enter zeroPayload)
    ((scripted []).withScript (ticked (tickThenZeros ++ midPacketTick)), freshServer)).map
      (fun out => (out.value, out.world.1.script)) = some (.strikes, ticked midPacketTick) := by
  decide +kernel

theorem ticks_between_packets_transparent_struck :
    ∃ w w' t t', Loop.Ends (clientWorker ⟨.little, none⟩) serverHandler (.enter zeroPayload)
        ((scripted []).withScript (original (tickThenZeros ++ midPacketTick)), freshServer) ⟨.strikes, w, t⟩ ∧
      Loop.Ends (clientWorker ⟨.little, none⟩) serverHandler (.enter zeroPayload)
        ((scripted []).withScript (ticked (tickThenZeros ++ midPacketTick)), freshServer) ⟨.strikes, w', t'⟩ ∧
      ShowsSame t t' ∧ w'.2 = w.2 ∧ w'.1.sent = w.1.sent := by
  have hstop : freshServer.choices.stop = none := rfl
  have hbetween : BetweenPackets .little ⟨.header [], 0⟩ tickThenZeros := by decide +kernel
  have hfew : FewTicks .little ⟨.header [], 0⟩ (ticked tickThenZeros) := by decide +kernel
  obtain ⟨why, why', w, w', t, t', hends, hends', hsame⟩ := ticks_between_packets_transparent ⟨.little, none⟩
    zeroPayload (scripted []) hstop midPacketTick hbetween hfew
  obtain ⟨out, hexec, hout⟩ := Option.map_eq_some_iff.mp tickThenZeros_leaves
  cases hends'.unique (.of_exec hexec)
  obtain ⟨rfl, hscript⟩ := Prod.mk.inj hout
  obtain ⟨rfl, hshows⟩ := hsame (by rw [hscript])
  exact ⟨w, _, t, _, hends, hends', hshows⟩

/-- One timeout inside the first header costs the worker three bytes of the stream and the peer three
errors; one inside the SENSOR payload ends the connection before the reading is stored. -/
theorem ticks_visible_midPacket :
    (∀ i ∈ [3, 40], FewTicks .little ⟨.header [], 0⟩ (ticked (tickAt i)) ∧
      served (original (tickAt i)) =
        some (.closed, [.reply (helloAckPacket 7 1), .record 7 5 (-250) 4000])) ∧
    served (ticked (tickAt 3)) = some (.strikes, [.reply (errorPacket 0x070008FF .badMagic),
      .reply (errorPacket 0x00504C01 .badMagic), .reply (errorPacket 0xF9000000 .badMagic)]) ∧
    served (ticked (tickAt 40)) = some (.midPayload, [.reply (helloAckPacket 7 1)]) := by
  decide +kernel

end PulseLink
