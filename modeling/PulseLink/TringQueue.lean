import PulseLink.Tring

/-! The ring of `kmod/tring.c` refines a queue of at most 256 records that drops its oldest one for a new one.
The slot of the oldest record is not stored: it is `head - count + TRING_CAP`, in wrapping arithmetic. -/

namespace PulseLink

/-- A call on the ring. -/
inductive TringCall where
  | push (rec : TelemetryRecord)
  | pop
  deriving DecidableEq, Repr

/-- What a call returns: whether a push overwrote a record, and the record a pop found. -/
inductive TringReply where
  | pushed (dropped : Bool)
  | popped (rec : Option TelemetryRecord)
  deriving DecidableEq, Repr

def Tring.call (r : Tring) : TringCall → TringReply × Tring
  | .push rec => (.pushed (tringPush r rec).1, (tringPush r rec).2)
  | .pop => (.popped (tringPop r).1, (tringPop r).2)

/-- The replies to the calls, in order, and the ring after them. -/
def Tring.calls : Tring → List TringCall → List TringReply × Tring
  | r, [] => ([], r)
  | r, c :: cs => ((r.call c).1 :: ((r.call c).2.calls cs).1, ((r.call c).2.calls cs).2)

/-- The queue that the ring stands for. -/
abbrev RecordQueue := Sliding 256 TelemetryRecord

namespace RecordQueue

def call (q : RecordQueue) : TringCall → TringReply × RecordQueue
  | .push rec => (.pushed (q.push rec).1, (q.push rec).2)
  | .pop => (.popped q.pop.1, q.pop.2)

def calls : RecordQueue → List TringCall → List TringReply × RecordQueue
  | q, [] => ([], q)
  | q, c :: cs => ((call q c).1 :: (calls (call q c).2 cs).1, (calls (call q c).2 cs).2)

end RecordQueue

/-! ### Counting replies -/

def TringReply.isPush : TringReply → Bool
  | .pushed _ => true
  | .popped _ => false

/-- A push that overwrote a record. -/
def TringReply.isDrop : TringReply → Bool
  | .pushed dropped => dropped
  | .popped _ => false

/-- A pop that found a record. -/
def TringReply.isRecord : TringReply → Bool
  | .pushed _ => false
  | .popped rec => rec.isSome

/-! ### The simulation -/

/-- After the replies `replies` the ring holds the records of the queue, and its counters count the replies. -/
structure Simulates (replies : List TringReply) (r : Tring) (q : RecordQueue) : Prop where
  valid : r.Valid
  contents : r.contents = q.items
  produced : r.produced = UInt64.ofNat (replies.countP TringReply.isPush)
  dropped : r.dropped = UInt64.ofNat (replies.countP TringReply.isDrop)
  balance : q.items.length + replies.countP TringReply.isDrop + replies.countP TringReply.isRecord =
    replies.countP TringReply.isPush

theorem push_dropped (r : Tring) (rec : TelemetryRecord) : (tringPush r rec).1 = decide (r.count = TRING_CAP) := by
  unfold tringPush
  split_ifs with hfull
  · exact (decide_eq_true hfull).symm
  · exact (decide_eq_false hfull).symm

namespace Simulates

variable {replies : List TringReply} {r : Tring} {q : RecordQueue}

theorem init (r : Tring) : Simulates [] (tringInit r) Sliding.empty where
  valid := r.valid_init
  contents := rfl
  produced := rfl
  dropped := rfl
  balance := rfl

theorem count_eq (hsim : Simulates replies r q) : r.count.toNat = q.items.length := by
  rw [← hsim.contents, Tring.length_contents]

/-- What a call adds to the counters, and to the balance of the queue. -/
theorem reply (hsim : Simulates replies r q) (reply : TringReply) {r' : Tring} {q' : RecordQueue}
    (hvalid : r'.Valid) (hcontents : r'.contents = q'.items)
    (hproduced : r'.produced = r.produced + if reply.isPush then 1 else 0)
    (hdropped : r'.dropped = r.dropped + if reply.isDrop then 1 else 0)
    (hlength : q'.items.length + (if reply.isDrop then 1 else 0) + (if reply.isRecord then 1 else 0) =
      q.items.length + if reply.isPush then 1 else 0) : Simulates (replies ++ [reply]) r' q' := by
  have hcount : ∀ (n : Nat) (b : Bool),
      UInt64.ofNat n + (if b then 1 else 0) = UInt64.ofNat (n + if b then 1 else 0) := by
    intro n b
    cases b with
    | false => exact UInt64.add_zero _
    | true => exact (UInt64.ofNat_add n 1).symm
  have hbalance := hsim.balance
  refine ⟨hvalid, hcontents, ?_, ?_, ?_⟩
  · rw [hproduced, hsim.produced, hcount, List.countP_append, List.countP_singleton]
  · rw [hdropped, hsim.dropped, hcount, List.countP_append, List.countP_singleton]
  · simp only [List.countP_append, List.countP_singleton]
    omega

theorem push_room (hsim : Simulates replies r q) (rec : TelemetryRecord) (hroom : q.items.length < 256) :
    (tringPush r rec).1 = false ∧
      Simulates (replies ++ [.pushed false]) (tringPush r rec).2 (q.push rec).2 := by
  have hcount := hsim.count_eq
  have hpush : (q.push rec).2.items = q.items ++ [rec] := by rw [Sliding.push, dif_pos hroom]
  obtain ⟨hvalid, hcontents, hproduced, hdropped⟩ := Tring.push_room hsim.valid rec (by omega)
  constructor
  · rw [push_dropped, decide_eq_false]
    rw [Tring.count_eq_cap_iff]
    omega
  · refine hsim.reply (.pushed false) hvalid ?_ hproduced (hdropped.trans (UInt64.add_zero _).symm) ?_
    · rw [hcontents, hsim.contents, hpush]
    · rw [hpush, List.length_append]
      rfl

theorem push_full (hsim : Simulates replies r q) (rec : TelemetryRecord) (hfull : ¬ q.items.length < 256) :
    (tringPush r rec).1 = true ∧
      Simulates (replies ++ [.pushed true]) (tringPush r rec).2 (q.push rec).2 := by
  have hcount := hsim.count_eq
  have hbound := q.bound
  have hpush : (q.push rec).2.items = q.items.drop 1 ++ [rec] := by rw [Sliding.push, dif_neg hfull]
  obtain ⟨hvalid, hcontents, hproduced, hdropped⟩ := Tring.push_full hsim.valid rec (by omega)
  constructor
  · rw [push_dropped, decide_eq_true]
    rw [Tring.count_eq_cap_iff]
    omega
  · refine hsim.reply (.pushed true) hvalid ?_ hproduced hdropped ?_
    · rw [hcontents, hsim.contents, hpush]
    · rw [hpush, List.length_append, List.length_drop]
      show q.items.length - 1 + 1 + 1 + 0 = q.items.length + 1
      omega

theorem pop (hsim : Simulates replies r q) :
    (tringPop r).1 = q.pop.1 ∧ Simulates (replies ++ [.popped q.pop.1]) (tringPop r).2 q.pop.2 := by
  obtain ⟨hrec, hvalid, hcontents, hproduced, hdropped⟩ := Tring.pop_eq hsim.valid
  constructor
  · rw [hrec, hsim.contents]
    rfl
  · refine hsim.reply (.popped q.pop.1) hvalid ?_ (hproduced.trans (UInt64.add_zero _).symm)
      (hdropped.trans (UInt64.add_zero _).symm) ?_
    · rw [hcontents, hsim.contents]
      rfl
    · cases hitems : q.items with
      | nil => simp [Sliding.pop, hitems, TringReply.isPush, TringReply.isDrop, TringReply.isRecord]
      | cons rec rest => simp [Sliding.pop, hitems, TringReply.isPush, TringReply.isDrop, TringReply.isRecord]

/-- Every call gets the reply of the queue, and keeps the ring in step with it. -/
theorem step (hsim : Simulates replies r q) (c : TringCall) :
    (r.call c).1 = (RecordQueue.call q c).1 ∧
      Simulates (replies ++ [(r.call c).1]) (r.call c).2 (RecordQueue.call q c).2 := by
  cases c with
  | push rec =>
      by_cases hroom : q.items.length < 256
      · obtain ⟨hreply, hnext⟩ := hsim.push_room rec hroom
        have hspec : (q.push rec).1 = false := by rw [Sliding.push, dif_pos hroom]
        simp only [Tring.call, RecordQueue.call, hreply, hspec]
        exact ⟨trivial, hnext⟩
      · obtain ⟨hreply, hnext⟩ := hsim.push_full rec hroom
        have hspec : (q.push rec).1 = true := by rw [Sliding.push, dif_neg hroom]
        simp only [Tring.call, RecordQueue.call, hreply, hspec]
        exact ⟨trivial, hnext⟩
  | pop =>
      obtain ⟨hreply, hnext⟩ := hsim.pop
      simp only [Tring.call, RecordQueue.call, hreply]
      exact ⟨trivial, hnext⟩

theorem run (hsim : Simulates replies r q) (cs : List TringCall) :
    (r.calls cs).1 = (RecordQueue.calls q cs).1 ∧
      Simulates (replies ++ (r.calls cs).1) (r.calls cs).2 (RecordQueue.calls q cs).2 := by
  induction cs generalizing replies r q with
  | nil =>
      refine ⟨rfl, ?_⟩
      rw [Tring.calls, List.append_nil]
      exact hsim
  | cons c cs ih =>
      obtain ⟨hreply, hstep⟩ := hsim.step c
      obtain ⟨hreplies, hrun⟩ := ih hstep
      rw [List.append_assoc] at hrun
      exact ⟨congrArg₂ List.cons hreply hreplies, hrun⟩

/-- The slot `head - count + TRING_CAP` is that of the oldest record. -/
theorem oldest (hsim : Simulates replies r q) (hne : q.items ≠ []) :
    r.buf[r.tail.toNat]? = q.items.head? := by
  have hlt : r.tail.toNat < 256 := by
    rw [Tring.toNat_tail hsim.valid]
    exact Nat.mod_lt _ (by decide)
  have hnonzero : r.count ≠ 0 := by
    intro hzero
    have hcount := hsim.count_eq
    rw [hzero] at hcount
    exact hne (List.length_eq_zero_iff.mp hcount.symm)
  have hpop := (Tring.pop_eq hsim.valid).1
  rw [tringPop, if_neg hnonzero, hsim.contents] at hpop
  rw [← hpop, List.getD_eq_getElem?_getD, List.getElem?_eq_getElem (by rw [r.size]; exact hlt)]
  rfl

end Simulates

/-- **The ring refines a queue that drops its oldest record.** After `tring_init` and any calls, the replies
are those of a queue of at most 256 records, and the ring holds its records. `head` stays in range, and
`head - count + TRING_CAP` is the slot of the oldest record; `produced` counts the pushes and `dropped` those
that overwrote a record, in 64 bits; `count` is what was produced less what was dropped and popped. On an empty
ring a pop changes nothing. -/
theorem tring_refines_queue (ring : Tring) (cs : List TringCall) :
    let replies := ((tringInit ring).calls cs).1
    let r := ((tringInit ring).calls cs).2
    let spec := RecordQueue.calls Sliding.empty cs
    replies = spec.1 ∧ r.contents = spec.2.items ∧ r.head < TRING_CAP ∧
      (spec.2.items ≠ [] → r.buf[r.tail.toNat]? = spec.2.items.head?) ∧
      r.produced = UInt64.ofNat (replies.countP TringReply.isPush) ∧
      r.dropped = UInt64.ofNat (replies.countP TringReply.isDrop) ∧
      r.count.toNat + replies.countP TringReply.isDrop + replies.countP TringReply.isRecord =
        replies.countP TringReply.isPush ∧
      r.count.toUInt64 = r.produced - r.dropped - UInt64.ofNat (replies.countP TringReply.isRecord) ∧
      (spec.2.items = [] → tringPop r = (none, r)) := by
  intro replies r spec
  obtain ⟨hreplies, hsim⟩ := (Simulates.init ring).run cs
  rw [List.nil_append] at hsim
  have hsim : Simulates replies r spec.2 := hsim
  have hbalance := hsim.balance
  rw [← hsim.count_eq] at hbalance
  refine ⟨hreplies, hsim.contents, UInt32.lt_iff_toNat_lt.mpr hsim.valid.head_lt, hsim.oldest, hsim.produced,
    hsim.dropped, hbalance, ?_, ?_⟩
  · have hcount : r.count.toUInt64 = UInt64.ofNat r.count.toNat := UInt64.toNat_inj.mp (by
      rw [UInt32.toNat_toUInt64, UInt64.toNat_ofNat_of_lt' (r.count.toNat_lt.trans (by decide))])
    have hcancel : ∀ a d p : UInt64, a = a + d + p - d - p := by grind
    rw [hsim.produced, hsim.dropped, ← hbalance, UInt64.ofNat_add, UInt64.ofNat_add, hcount]
    exact hcancel _ _ _
  · intro hempty
    have hcount := hsim.count_eq
    rw [hempty] at hcount
    rw [tringPop, if_pos (UInt32.toNat_inj.mp hcount)]

end PulseLink
