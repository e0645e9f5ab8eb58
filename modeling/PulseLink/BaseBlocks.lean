import PulseLink.BaseBytes

/-! Filling a buffer block by block. A buffer of `total` cells is cut into blocks of `B` cells, the last
one shorter, and overwritten by a sequence of block writes in any order, with repetitions. Each cell
then holds what the last write of its block put there, and a table of flags, one for each block, counts
the blocks that have been written. -/

namespace PulseLink.Blocks

open Bytes

variable {α : Type}

/-- The number of blocks of `B` cells that cover `total` cells. -/
def count (B total : Nat) : Nat := (total + B - 1) / B

/-- The number of cells of block `i`. -/
def len (B total i : Nat) : Nat := min B (total - B * i)

/-- The cells of block `i`. -/
def slice (B : Nat) (cells : List α) (i : Nat) : List α := (cells.drop (B * i)).take B

/-- A write gives a block new contents. -/
abbrev Write (α : Type) := Nat × List α

/-- The buffer after the writes, in order. -/
def writeAll (B : Nat) (buf : List α) (ws : List (Write α)) : List α :=
  ws.foldl (fun buf w => storeAt buf (B * w.1) w.2) buf

/-- What the last write of block `i` put there. -/
def last (ws : List (Write α)) (i : Nat) : Option (List α) :=
  ws.foldl (fun found w => if w.1 = i then some w.2 else found) none

/-- Every write is to a block of the buffer and fills it. -/
def Fits (B total : Nat) (ws : List (Write α)) : Prop :=
  ∀ w ∈ ws, w.1 < count B total ∧ w.2.length = len B total w.1

/-- Every block has been written. -/
def Covers (n : Nat) (ws : List (Write α)) : Prop := ∀ i < n, ∃ w ∈ ws, w.1 = i

instance (n : Nat) (ws : List (Write α)) : Decidable (Covers n ws) :=
  inferInstanceAs (Decidable (∀ i < n, ∃ w ∈ ws, w.1 = i))

/-! ### Sizes -/

theorem mul_lt_of_lt_count {B total i : Nat} (hB : 0 < B) (hi : i < count B total) : B * i < total := by
  have h := (Nat.le_div_iff_mul_le hB).mp (Nat.succ_le_of_lt hi)
  rw [Nat.succ_mul, Nat.mul_comm] at h
  omega

theorem div_lt_count {B total p : Nat} (hB : 0 < B) (hp : p < total) : p / B < count B total := by
  apply Nat.lt_of_succ_le
  apply (Nat.le_div_iff_mul_le hB).mpr
  have h := Nat.div_mul_le_self p B
  rw [Nat.succ_mul]
  omega

theorem off_add_len_le (B total i : Nat) : B * i ≤ total → B * i + len B total i ≤ total := by
  intro hi
  rw [len]
  omega

/-- A cell lies in block `i` exactly when its index divided by the block size is `i`. -/
theorem mem_block_iff {B total p i : Nat} (hB : 0 < B) (hp : p < total) :
    (B * i ≤ p ∧ p < B * i + len B total i) ↔ p / B = i := by
  have hdiv := Nat.div_add_mod p B
  have hmod := Nat.mod_lt p hB
  rw [len]
  constructor
  · rintro ⟨hlow, hhigh⟩
    apply Nat.div_eq_of_lt_le
    · rw [Nat.mul_comm]
      exact hlow
    · rw [Nat.succ_mul, Nat.mul_comm]
      omega
  · rintro rfl
    omega

theorem length_slice (B : Nat) (cells : List α) (i : Nat) :
    (slice B cells i).length = len B cells.length i := by
  simp [slice, len]

theorem slice_getElem? {B : Nat} (hB : 0 < B) (cells : List α) (p : Nat) :
    (slice B cells (p / B))[p % B]? = cells[p]? := by
  have hmod := Nat.mod_lt p hB
  rw [slice, List.getElem?_take_of_lt hmod, List.getElem?_drop, Nat.div_add_mod]

/-! ### The last write of each block -/

theorem last_append (ws : List (Write α)) (w : Write α) (i : Nat) :
    last (ws ++ [w]) i = if w.1 = i then some w.2 else last ws i := by
  simp [last]

theorem last_isSome {ws : List (Write α)} {i : Nat} (hmem : ∃ w ∈ ws, w.1 = i) :
    ∃ block, last ws i = some block := by
  induction ws using List.reverseRecOn with
  | nil => simp at hmem
  | append_singleton ws w ih =>
      rw [last_append]
      split_ifs with hw
      · exact ⟨w.2, rfl⟩
      · obtain ⟨w', hmem', hw'⟩ := hmem
        rcases List.mem_append.mp hmem' with h | h
        · exact ih ⟨w', h, hw'⟩
        · rw [List.mem_singleton] at h
          subst h
          exact absurd hw' hw

/-- The last write of block `i` is one of the writes, and none after it is to block `i`. -/
theorem last_eq_some {ws : List (Write α)} {i : Nat} {block : List α}
    (hlast : last ws i = some block) :
    ∃ before after, ws = before ++ (i, block) :: after ∧ ∀ w ∈ after, w.1 ≠ i := by
  induction ws using List.reverseRecOn with
  | nil => simp [last] at hlast
  | append_singleton ws w ih =>
      rw [last_append] at hlast
      split_ifs at hlast with hw
      · cases hlast
        exact ⟨ws, [], by rw [← hw], by simp⟩
      · obtain ⟨before, after, rfl, hafter⟩ := ih hlast
        refine ⟨before, after ++ [w], by simp, ?_⟩
        intro w' hw'
        rcases List.mem_append.mp hw' with h | h
        · exact hafter w' h
        · rw [List.mem_singleton] at h
          subst h
          exact hw

/-! ### The contents of the buffer -/

section Contents

variable {B total : Nat} (hB : 0 < B)

theorem writeAll_append (buf : List α) (ws : List (Write α)) (w : Write α) :
    writeAll B buf (ws ++ [w]) = storeAt (writeAll B buf ws) (B * w.1) w.2 := by
  simp [writeAll]

theorem Fits.init {ws : List (Write α)} {w : Write α} (hfits : Fits B total (ws ++ [w])) :
    Fits B total ws :=
  fun w' hw' => hfits w' (List.mem_append_left _ hw')

theorem Fits.last_le {ws : List (Write α)} {w : Write α} (hB : 0 < B)
    (hfits : Fits B total (ws ++ [w])) : B * w.1 + w.2.length ≤ total := by
  obtain ⟨hlt, hlen⟩ := hfits w (by simp)
  rw [hlen]
  exact off_add_len_le B total w.1 (mul_lt_of_lt_count hB hlt).le

include hB in
theorem length_writeAll {buf : List α} (hbuf : buf.length = total) {ws : List (Write α)}
    (hfits : Fits B total ws) : (writeAll B buf ws).length = total := by
  induction ws using List.reverseRecOn with
  | nil => exact hbuf
  | append_singleton ws w ih =>
      have hlen := ih hfits.init
      rw [writeAll_append, length_storeAt _ _ _ (by rw [hlen]; exact hfits.last_le hB), hlen]

include hB in
/-- Each cell holds what the last write of its block put there, or what it held before. -/
theorem writeAll_getElem? {buf : List α} (hbuf : buf.length = total) {ws : List (Write α)}
    (hfits : Fits B total ws) {p : Nat} (hp : p < total) :
    (writeAll B buf ws)[p]? =
      match last ws (p / B) with
      | some block => block[p % B]?
      | none => buf[p]? := by
  induction ws using List.reverseRecOn with
  | nil => rfl
  | append_singleton ws w ih =>
      have hlen := length_writeAll hB hbuf hfits.init
      have hw := (hfits w (by simp)).2
      rw [writeAll_append, last_append,
        storeAt_getElem? _ _ _ (by rw [hlen]; exact hfits.last_le hB), hw]
      simp only [mem_block_iff hB hp]
      by_cases heq : p / B = w.1
      · have hmod : p - B * w.1 = p % B := by
          rw [← heq]
          have := Nat.div_add_mod p B
          omega
        rw [if_pos heq, if_pos heq.symm, hmod]
      · rw [if_neg heq, if_neg (Ne.symm heq)]
        exact ih hfits.init

include hB in
/-- Once every block has been written, nothing of the old contents is left. -/
theorem writeAll_getElem?_of_covers {buf : List α} (hbuf : buf.length = total)
    {ws : List (Write α)} (hfits : Fits B total ws) (hcovers : Covers (count B total) ws)
    {p : Nat} (hp : p < total) :
    ∃ block, last ws (p / B) = some block ∧ (writeAll B buf ws)[p]? = block[p % B]? := by
  obtain ⟨block, hblock⟩ := last_isSome (hcovers (p / B) (div_lt_count hB hp))
  refine ⟨block, hblock, ?_⟩
  rw [writeAll_getElem? hB hbuf hfits hp, hblock]

include hB in
/-- Writing all blocks of `cells`, in any order and with repetitions, produces `cells`. -/
theorem writeAll_slices {buf cells : List α} (hbuf : buf.length = cells.length)
    {ws : List (Write α)}
    (hws : ∀ w ∈ ws, w.1 < count B cells.length ∧ w.2 = slice B cells w.1)
    (hcovers : Covers (count B cells.length) ws) : writeAll B buf ws = cells := by
  have hfits : Fits B cells.length ws := by
    intro w hw
    obtain ⟨hlt, hslice⟩ := hws w hw
    exact ⟨hlt, by rw [hslice, length_slice]⟩
  apply List.ext_getElem?
  intro p
  rcases Nat.lt_or_ge p cells.length with hp | hp
  · obtain ⟨block, hblock, hcell⟩ := writeAll_getElem?_of_covers hB hbuf hfits hcovers hp
    obtain ⟨before, after, hsplit, -⟩ := last_eq_some hblock
    have hslice := (hws (p / B, block) (by rw [hsplit]; simp)).2
    rw [hcell, show block = slice B cells (p / B) from hslice, slice_getElem? hB]
  · rw [List.getElem?_eq_none (by rw [length_writeAll hB hbuf hfits]; exact hp),
      List.getElem?_eq_none hp]

end Contents

/-! ### Flags of the written blocks -/

/-- One flag for each block: has it been written? -/
def flags (n : Nat) (ws : List (Write α)) : List Bool :=
  (List.range n).map fun i => ws.any fun w => w.1 = i

theorem length_flags (n : Nat) (ws : List (Write α)) : (flags n ws).length = n := by
  simp [flags]

theorem flags_getElem? {n i : Nat} (ws : List (Write α)) (hi : i < n) :
    (flags n ws)[i]? = some (ws.any fun w => w.1 = i) := by
  simp [flags, hi]

theorem flags_nil (n : Nat) : flags n ([] : List (Write α)) = List.replicate n false := by
  simp [flags]

/-- A further write sets the flag of its block. -/
theorem flags_append (n : Nat) (ws : List (Write α)) (w : Write α) :
    flags n (ws ++ [w]) = (flags n ws).set w.1 true := by
  apply List.ext_getElem?
  intro i
  rcases Nat.lt_or_ge i n with hi | hi
  · rw [flags_getElem? _ hi, List.getElem?_set]
    by_cases heq : w.1 = i
    · rw [if_pos heq, if_pos (by rw [length_flags]; omega)]
      simp [heq]
    · rw [if_neg heq, flags_getElem? _ hi]
      simp [heq]
  · rw [List.getElem?_eq_none (by rw [length_flags]; exact hi),
      List.getElem?_eq_none (by rw [List.length_set, length_flags]; exact hi)]

theorem count_set_true {l : List Bool} {i : Nat} (hi : l[i]? = some false) :
    (l.set i true).count true = l.count true + 1 := by
  induction l generalizing i with
  | nil => simp at hi
  | cons b l ih =>
      cases i with
      | zero =>
          simp only [List.getElem?_cons_zero, Option.some.injEq] at hi
          subst hi
          simp
      | succ i =>
          rw [List.getElem?_cons_succ] at hi
          rw [List.set_cons_succ, List.count_cons, List.count_cons, ih hi]
          omega

theorem set_true_of_true {l : List Bool} {i : Nat} (hi : l[i]? = some true) : l.set i true = l := by
  apply List.ext_getElem?
  intro j
  rw [List.getElem?_set]
  split_ifs with heq hlt
  · subst heq
    exact hi.symm
  · subst heq
    rw [List.getElem?_eq_none (by omega)] at hi
    cases hi
  · rfl

/-- All flags are set exactly when every block has been written. -/
theorem count_flags_eq_iff (n : Nat) (ws : List (Write α)) :
    (flags n ws).count true = n ↔ Covers n ws := by
  have hlen := length_flags n ws
  constructor
  · intro hcount i hi
    have hall := List.count_eq_length.mp (hcount.trans hlen.symm)
    have hflag := flags_getElem? ws hi
    have := hall _ (List.mem_of_getElem? hflag)
    simpa using this
  · intro hcovers
    rw [← hlen]
    nth_rewrite 1 [hlen]
    refine List.count_eq_length.mpr ?_
    intro b hb
    obtain ⟨i, hi⟩ := List.mem_iff_getElem?.mp hb
    have hlt : i < n := by
      by_contra hge
      rw [List.getElem?_eq_none (by rw [hlen]; omega)] at hi
      cases hi
    rw [flags_getElem? ws hlt, Option.some.injEq] at hi
    rw [← hi, eq_comm, List.any_eq_true]
    obtain ⟨w, hw, heq⟩ := hcovers i hlt
    exact ⟨w, hw, by simpa using heq⟩

theorem count_flags_le (n : Nat) (ws : List (Write α)) : (flags n ws).count true ≤ n := by
  calc (flags n ws).count true ≤ (flags n ws).length := List.count_le_length
    _ = n := length_flags n ws

end PulseLink.Blocks
