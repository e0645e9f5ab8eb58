import Mathlib

/-! Bounded queues. A `History` drops its oldest element when full and records how each element left. An
element leaves only from the front, either taken by a consumer or overwritten by a push, so all elements
ever pushed are those that left, in the order they left, followed by those still queued. A `Fifo` refuses
a new element when full; a `Sliding` queue drops its front for it and says so. Slots that are written round and
round hold the last elements (`Wraps`). -/

namespace PulseLink

/-- How an element left the queue. -/
inductive Fate where
  | taken
  | overwritten
  deriving DecidableEq, Repr

/-- The elements that left, oldest first, and those still queued. -/
structure History (α : Type) where
  gone : List (Fate × α)
  queue : List α
  deriving DecidableEq, Repr

namespace History

variable {α : Type}

def empty : History α := ⟨[], []⟩

/-- The elements `xs` leaving in one way. -/
def leaving (fate : Fate) (xs : List α) : List (Fate × α) := xs.map fun x => (fate, x)

/-- Appends an element; a queue at capacity first loses its front. -/
def push (cap : Nat) (h : History α) (a : α) : History α :=
  if h.queue.length < cap then { h with queue := h.queue ++ [a] }
  else
    { gone := h.gone ++ leaving .overwritten (h.queue.take 1)
      queue := h.queue.drop 1 ++ [a] }

/-- Takes up to `n` elements from the front. -/
def take (h : History α) (n : Nat) : History α where
  gone := h.gone ++ leaving .taken (h.queue.take n)
  queue := h.queue.drop n

/-- All elements ever pushed, in order. -/
def pushed (h : History α) : List α := h.gone.map Prod.snd ++ h.queue

/-- The elements that left in a given way, in order. -/
def left (fate : Fate) (h : History α) : List α :=
  (h.gone.filter fun x => x.1 = fate).map Prod.snd

theorem snd_leaving (fate : Fate) (xs : List α) : (leaving fate xs).map Prod.snd = xs := by
  rw [leaving, List.map_map]
  exact List.map_id xs

theorem left_leaving (fate fate' : Fate) (gone : List (Fate × α)) (xs queue : List α) :
    left fate ⟨gone ++ leaving fate' xs, queue⟩ =
      left fate ⟨gone, queue⟩ ++ if fate' = fate then xs else [] := by
  have hfilter : (leaving fate' xs).filter (fun x => x.1 = fate) =
      if fate' = fate then leaving fate' xs else [] := by
    unfold leaving
    split_ifs with heq
    · exact List.filter_eq_self.mpr (by simp [heq])
    · exact List.filter_eq_nil_iff.mpr (by simp [heq])
  unfold left
  rw [List.filter_append, List.map_append, hfilter]
  split_ifs
  · rw [snd_leaving]
  · rfl

theorem pushed_leaving (fate : Fate) (gone : List (Fate × α)) (n : Nat) (queue rest : List α) :
    pushed ⟨gone ++ leaving fate (queue.take n), queue.drop n ++ rest⟩ = pushed ⟨gone, queue ++ rest⟩ := by
  unfold pushed
  rw [List.map_append, snd_leaving, List.append_assoc]
  congr 1
  rw [← List.append_assoc, List.take_append_drop]

/-! ### Pushing -/

theorem pushed_push (cap : Nat) (h : History α) (a : α) : (h.push cap a).pushed = h.pushed ++ [a] := by
  have happend : pushed ⟨h.gone, h.queue ++ [a]⟩ = h.pushed ++ [a] := (List.append_assoc _ _ _).symm
  unfold push
  split_ifs
  · exact happend
  · rw [pushed_leaving, happend]

theorem taken_push (cap : Nat) (h : History α) (a : α) : (h.push cap a).left .taken = h.left .taken := by
  unfold push
  split_ifs
  · rfl
  · rw [left_leaving, if_neg (by decide), List.append_nil]
    rfl

theorem length_overwritten_push {cap : Nat} (hcap : 0 < cap) (h : History α) (a : α) :
    ((h.push cap a).left .overwritten).length =
      (h.left .overwritten).length + if h.queue.length < cap then 0 else 1 := by
  unfold push
  split_ifs with hroom
  · rfl
  · rw [left_leaving, if_pos rfl, List.length_append, List.length_take, Nat.min_eq_left (by omega)]
    rfl

/-! ### Taking -/

theorem pushed_take (h : History α) (n : Nat) : (h.take n).pushed = h.pushed := by
  have htake := pushed_leaving .taken h.gone n h.queue []
  rwa [List.append_nil, List.append_nil] at htake

theorem taken_take (h : History α) (n : Nat) :
    (h.take n).left .taken = h.left .taken ++ h.queue.take n :=
  left_leaving .taken .taken h.gone (h.queue.take n) (h.queue.drop n)

theorem overwritten_take (h : History α) (n : Nat) :
    (h.take n).left .overwritten = h.left .overwritten := by
  unfold take
  rw [left_leaving, if_neg (by decide), List.append_nil]
  rfl

/-! ### Every history -/

/-- What left in one way did so in the order it was pushed. -/
theorem left_sublist (fate : Fate) (h : History α) : (h.left fate).Sublist h.pushed :=
  (List.filter_sublist.map Prod.snd).trans (List.sublist_append_left _ _)

/-- Element by element: what was pushed is what was taken, what was overwritten and what is queued. -/
theorem pushed_perm (h : History α) :
    h.pushed.Perm (h.left .taken ++ h.left .overwritten ++ h.queue) := by
  have hfates : h.gone.filter (fun x => !decide (x.1 = .taken)) =
      h.gone.filter fun x => decide (x.1 = .overwritten) := by
    refine List.filter_congr ?_
    intro x _
    cases x.1 <;> decide
  have hgone := List.filter_append_perm (fun x : Fate × α => decide (x.1 = .taken)) h.gone
  rw [hfates] at hgone
  have hleft := (hgone.map Prod.snd).symm
  rw [List.map_append] at hleft
  exact hleft.append_right h.queue

/-- Every element pushed was taken, was overwritten or is queued. -/
theorem length_pushed (h : History α) :
    h.pushed.length = (h.left .taken).length + (h.left .overwritten).length + h.queue.length := by
  have hsplit : h.gone.length =
      (h.gone.filter fun x => x.1 = .taken).length + (h.gone.filter fun x => x.1 = .overwritten).length := by
    rw [← List.countP_eq_length_filter, ← List.countP_eq_length_filter,
      List.length_eq_countP_add_countP fun x => decide (x.1 = .taken)]
    congr 1
    refine List.countP_congr ?_
    intro x _
    cases x.1 <;> decide
  simp only [pushed, left, List.length_append, List.length_map, hsplit]

end History

/-! ### Queues that refuse -/

/-- A queue of at most `cap` elements. -/
structure Fifo (cap : Nat) (α : Type) where
  items : List α
  bound : items.length ≤ cap

namespace Fifo

variable {cap : Nat} {α : Type}

def empty : Fifo cap α := ⟨[], Nat.zero_le cap⟩

/-- Appends an element if there is room, and says whether there was. -/
def send (q : Fifo cap α) (a : α) : Bool × Fifo cap α :=
  if hroom : q.items.length < cap then (true, ⟨q.items ++ [a], by rwa [List.length_append]⟩) else (false, q)

/-- Takes the front element. -/
def receive (q : Fifo cap α) : Option α × Fifo cap α :=
  (q.items.head?, ⟨q.items.tail, by rw [List.length_tail]; exact (Nat.sub_le _ _).trans q.bound⟩)

theorem send_items (q : Fifo cap α) (a : α) :
    (q.send a).2.items = q.items ++ if (q.send a).1 then [a] else [] := by
  by_cases hroom : q.items.length < cap
  · rw [send, dif_pos hroom]
    rfl
  · rw [send, dif_neg hroom]
    exact (List.append_nil _).symm

theorem receive_items (q : Fifo cap α) : q.items = q.receive.1.toList ++ q.receive.2.items := by
  obtain ⟨items, hbound⟩ := q
  cases items with
  | nil => rfl
  | cons a rest => rfl

end Fifo

/-! ### Queues that drop their oldest -/

/-- A queue of at most `cap` elements, which makes room for a new one by dropping the front. -/
structure Sliding (cap : Nat) (α : Type) where
  items : List α
  bound : items.length ≤ cap

namespace Sliding

variable {cap : Nat} {α : Type}

def empty : Sliding cap α := ⟨[], Nat.zero_le cap⟩

theorem length_dropped [NeZero cap] (q : Sliding cap α) (a : α) : (q.items.drop 1 ++ [a]).length ≤ cap := by
  have hcap := NeZero.pos cap
  have hbound := q.bound
  rw [List.length_append, List.length_drop, List.length_singleton]
  omega

theorem length_tail_le (q : Sliding cap α) : (q.items.drop 1).length ≤ cap := by
  rw [List.length_drop]
  exact (Nat.sub_le _ _).trans q.bound

/-- Appends an element, and says whether the front was dropped for it. -/
def push [NeZero cap] (q : Sliding cap α) (a : α) : Bool × Sliding cap α :=
  if hroom : q.items.length < cap then (false, ⟨q.items ++ [a], List.length_append.trans_le hroom⟩)
  else (true, ⟨q.items.drop 1 ++ [a], q.length_dropped a⟩)

/-- Takes the front element, if there is one. -/
def pop (q : Sliding cap α) : Option α × Sliding cap α := (q.items.head?, ⟨q.items.drop 1, q.length_tail_le⟩)

end Sliding

/-! ### Slots written round and round -/

/-- The slots hold the last of the items, item `k` in slot `k` modulo their number. -/
def Wraps {α : Type} (slots items : List α) : Prop :=
  ∀ k < items.length, items.length ≤ k + slots.length → slots[k % slots.length]? = items[k]?

theorem wraps_nil {α : Type} (slots : List α) : Wraps slots [] := by
  intro k hk
  exact absurd hk (Nat.not_lt_zero k)

theorem Wraps.append {α : Type} {slots items : List α} (hwraps : Wraps slots items) (hpos : 0 < slots.length)
    (a : α) : Wraps (slots.set (items.length % slots.length) a) (items ++ [a]) := by
  intro k hk hlast
  have hslot := Nat.mod_lt k hpos
  simp only [List.length_append, List.length_singleton, List.length_set] at hk hlast ⊢
  by_cases hnew : k = items.length
  · subst hnew
    rw [List.getElem?_set_self hslot, List.getElem?_concat_length]
  · have hother : items.length % slots.length ≠ k % slots.length := by
      intro hsame
      -- two items in the same slot are a whole round apart
      have hround := Nat.sub_mod_eq_zero_of_mod_eq hsame
      rw [Nat.mod_eq_of_lt (by omega)] at hround
      omega
    rw [List.getElem?_set_ne hother, List.getElem?_append_left (by omega)]
    exact hwraps k (by omega) (by omega)

end PulseLink
