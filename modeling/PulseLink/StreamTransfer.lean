import PulseLink.NetUtil

/-! One transfer from end to end: the bytes `write_n` puts on the stream, and what `read_n` makes of the stream
however it is cut. `writeN` says how many bytes of a reply went out; here the bytes themselves are followed. The
outcomes of `send` are a sequence without end, of which a call uses the beginning. -/

namespace PulseLink

/-- A call of `write_n` that has returned: its result (`none` for -1), the bytes handed to the stream, and the
outcomes of `send` it has not used. -/
structure Written where
  ret : Option Nat
  wire : List UInt8
  unused : List Send
  deriving DecidableEq, Repr

/-- `write_n(fd, buf, n)` for a buffer of `n` bytes, with `sent` of them taken and `wire` on the stream. No
answer: the outcomes given are used up and the loop is still running. -/
def writeBuf (buf : List UInt8) : Nat → List UInt8 → List Send → Option Written
  | sent, wire, [] => if sent < buf.length then none else some ⟨some sent, wire, []⟩
  | sent, wire, s :: rest =>
      if sent < buf.length then
        match s with
        | .eintr => writeBuf buf sent wire rest
        | .failed => some ⟨none, wire, rest⟩
        | .wrote k =>
            -- `send` is offered the bytes from `p + sent` on and takes the first `k` of them
            let taken := (buf.drop sent).take k
            writeBuf buf (sent + taken.length) (wire ++ taken) rest
      else some ⟨some sent, wire, s :: rest⟩

section WriteBuf

variable {buf : List UInt8}

theorem writeBuf_full {sent : Nat} (hfull : buf.length ≤ sent) (wire : List UInt8) (sends : List Send) :
    writeBuf buf sent wire sends = some ⟨some sent, wire, sends⟩ := by
  cases sends with
  | nil => rw [writeBuf, if_neg (by omega)]
  | cons s rest => cases s <;> rw [writeBuf, if_neg (by omega)]

theorem writeBuf_all (buf : List UInt8) (sends : List Send) :
    writeBuf buf buf.length (buf.take buf.length) sends = some ⟨some buf.length, buf, sends⟩ := by
  rw [List.take_length, writeBuf_full le_rfl]

theorem length_taken (buf : List UInt8) (sent k : Nat) :
    ((buf.drop sent).take k).length = min k (buf.length - sent) := by
  rw [List.length_take, List.length_drop]

theorem take_append_taken (buf : List UInt8) (sent k : Nat) :
    buf.take sent ++ (buf.drop sent).take k = buf.take (sent + ((buf.drop sent).take k).length) := by
  rw [List.take_add, List.length_take, ← List.take_eq_take_min]

/-- What `write_n` counts is what it has put on the stream. -/
theorem writeBuf_writeN {sent : Nat} (hsent : sent ≤ buf.length) {wire : List UInt8}
    (hwire : wire.length = sent) {sends : List Send} {w : Written}
    (hw : writeBuf buf sent wire sends = some w) :
    writeN buf.length sent sends = (w.ret.isSome, w.wire.length, w.unused) := by
  induction sends generalizing sent wire with
  | nil =>
      rw [writeBuf] at hw
      split_ifs at hw with hmore
      cases hw
      rw [writeN, hwire, show sent = buf.length by omega]
      rfl
  | cons s rest ih =>
      by_cases hmore : sent < buf.length
      · cases s with
        | eintr =>
            rw [writeBuf, if_pos hmore] at hw
            rw [writeN, if_pos hmore]
            exact ih hsent hwire hw
        | failed =>
            rw [writeBuf, if_pos hmore] at hw
            cases hw
            rw [writeN, if_pos hmore, hwire]
            rfl
        | wrote k =>
            rw [writeBuf, if_pos hmore] at hw
            have hlen := length_taken buf sent k
            have hnext := ih (by omega) (by rw [List.length_append, hwire]) hw
            rw [writeN, if_pos hmore, ← hlen]
            exact hnext
      · rw [writeBuf_full (by omega)] at hw
        cases hw
        cases s <;> rw [writeN, if_neg hmore, hwire] <;> rfl

/-- An outcome of `send` other than an error: at least one byte is taken, or the call is interrupted. -/
def Send.Goes : Send → Prop
  | .wrote k => 1 ≤ k
  | .eintr => True
  | .failed => False

/-- The loop ends with the whole buffer on the stream, in order, as soon as as many calls have taken bytes as
there are bytes; the outcomes behind the last call do not matter. -/
theorem writeBuf_goes {sends : List Send} (hgoes : ∀ s ∈ sends, s.Goes) {sent : Nat} (hsent : sent ≤ buf.length)
    (henough : buf.length - sent ≤ sends.countP (· ≠ .eintr)) :
    ∃ used unused, sends = used ++ unused ∧
      ∀ later, writeBuf buf sent (buf.take sent) (used ++ later) = some ⟨some buf.length, buf, later⟩ := by
  induction sends generalizing sent with
  | nil =>
      obtain rfl : sent = buf.length := by
        rw [List.countP_nil] at henough
        omega
      exact ⟨[], [], rfl, writeBuf_all buf⟩
  | cons s rest ih =>
      have hrest : ∀ s ∈ rest, s.Goes := fun s hs => hgoes s (List.mem_cons_of_mem _ hs)
      by_cases hmore : sent < buf.length
      · cases s with
        | eintr =>
            obtain ⟨used, unused, rfl, hrun⟩ := ih hrest hsent (by simpa using henough)
            refine ⟨.eintr :: used, unused, rfl, fun later => ?_⟩
            rw [List.cons_append, writeBuf, if_pos hmore]
            exact hrun later
        | failed => exact (hgoes .failed List.mem_cons_self).elim
        | wrote k =>
            have hk : 1 ≤ k := hgoes (.wrote k) List.mem_cons_self
            have hlen := length_taken buf sent k
            have hcount : buf.length - sent ≤ rest.countP (· ≠ .eintr) + 1 := by simpa using henough
            obtain ⟨used, unused, rfl, hrun⟩ := ih hrest
              (show sent + ((buf.drop sent).take k).length ≤ buf.length by omega) (by omega)
            refine ⟨.wrote k :: used, unused, rfl, fun later => ?_⟩
            rw [List.cons_append, writeBuf, if_pos hmore]
            simp only [take_append_taken]
            exact hrun later
      · obtain rfl : sent = buf.length := by omega
        exact ⟨[], s :: rest, rfl, writeBuf_all buf⟩

end WriteBuf

/-! ### Outcomes without end -/

/-- The first `m` outcomes of a sequence. -/
def firstSends (sends : Nat → Send) (m : Nat) : List Send := (List.range m).map sends

section Sends

variable {sends : Nat → Send}

theorem length_firstSends (sends : Nat → Send) (m : Nat) : (firstSends sends m).length = m := by
  rw [firstSends, List.length_map, List.length_range]

theorem firstSends_add (sends : Nat → Send) (m more : Nat) :
    firstSends sends (m + more) = firstSends sends m ++ firstSends (fun i => sends (m + i)) more := by
  rw [firstSends, List.range_add, List.map_append, List.map_map]
  rfl

/-- With finitely many interrupted calls there are as many others as one asks for. -/
theorem exists_countP_firstSends (hfin : {i | sends i = .eintr}.Finite) (n : Nat) :
    ∃ m, n ≤ (firstSends sends m).countP (· ≠ .eintr) := by
  obtain ⟨last, hlast⟩ := hfin.bddAbove
  refine ⟨last + 1 + n, ?_⟩
  have hall : (firstSends (fun i => sends (last + 1 + i)) n).countP (· ≠ .eintr) = n := by
    rw [List.countP_eq_length.mpr]
    · exact length_firstSends _ n
    · intro s hs
      obtain ⟨i, -, rfl⟩ := List.mem_map.mp hs
      have hlate : sends (last + 1 + i) ≠ .eintr := fun heq => by
        have := hlast heq
        omega
      simpa using hlate
  rw [firstSends_add, List.countP_append, hall]
  omega

/-- **`write_n` over a sequence of outcomes.** It returns after finitely many calls, with its whole buffer on the
stream. -/
theorem writeBuf_returns (buf : List UInt8) (hgoes : ∀ i, (sends i).Goes) (hfin : {i | sends i = .eintr}.Finite) :
    ∃ calls, ∀ more, writeBuf buf 0 [] (firstSends sends (calls + more)) =
      some ⟨some buf.length, buf, firstSends (fun i => sends (calls + i)) more⟩ := by
  obtain ⟨m, hm⟩ := exists_countP_firstSends hfin buf.length
  have hlist : ∀ s ∈ firstSends sends m, s.Goes := by
    intro s hs
    obtain ⟨i, -, rfl⟩ := List.mem_map.mp hs
    exact hgoes i
  obtain ⟨used, unused, hsplit, hrun⟩ := writeBuf_goes hlist (Nat.zero_le buf.length) hm
  have hused : used = firstSends sends used.length := by
    have hm : m = used.length + unused.length := by
      rw [← List.length_append, ← hsplit, length_firstSends]
    rw [hm, firstSends_add] at hsplit
    exact (List.append_inj_left hsplit (length_firstSends _ _)).symm
  refine ⟨used.length, fun more => ?_⟩
  rw [firstSends_add, ← hused]
  exact hrun _

end Sends

/-- **A transfer is exact.** For every buffer, every sequence of `send` outcomes that take at least one byte or
are interrupted, finitely often, and every cut of the stream: `write_n` returns the size of the buffer after
finitely many calls and has put exactly its bytes on the stream; `read_n` of that size returns exactly those
bytes and leaves alone what comes behind them; and from a stream that ends early it returns the bytes there are. -/
theorem transfer_exact (buf : List UInt8) (sends : Nat → Send) (hgoes : ∀ i, (sends i).Goes)
    (hfin : {i | sends i = .eintr}.Finite) :
    (∃ calls, ∀ more, writeBuf buf 0 [] (firstSends sends (calls + more)) =
      some ⟨some buf.length, buf, firstSends (fun i => sends (calls + i)) more⟩) ∧
    (∀ after script more later, Clean script → bytesOf script = buf ++ more →
      ∃ rest, readN after buf.length [] (script ++ later) = (.count buf, rest ++ later) ∧
        Clean rest ∧ bytesOf rest = more) ∧
    (∀ script k, Clean script → k < buf.length → bytesOf script = buf.take k →
      readN .eof buf.length [] script = (.count (buf.take k), []) ∧
      ∀ after later, readN after buf.length [] (script ++ .eof :: later) = (.count (buf.take k), later)) := by
  refine ⟨writeBuf_returns buf hgoes hfin, ?_, ?_⟩
  · intro after script more later hclean hbytes
    obtain ⟨rest, hread, hrest, hleft⟩ := readN_clean_append after buf.length hclean later [] (Nat.zero_le _)
      (by rw [hbytes, List.length_append]; simp)
    refine ⟨rest, ?_, hrest, ?_⟩
    · rw [hread, hbytes]
      simp
    · rw [hleft, hbytes]
      simp
  · intro script k hclean hk hbytes
    have hlen : (bytesOf script).length = k := by rw [hbytes, List.length_take, Nat.min_eq_left hk.le]
    have hread := fun after later =>
      readN_short after hclean later [] (show 0 + (bytesOf script).length < buf.length by omega)
    constructor
    · have hend := hread .eof []
      rw [List.append_nil, List.nil_append, hbytes, readN, ite_self] at hend
      exact hend
    · intro after later
      rw [hread, List.nil_append, readN, if_pos (by omega), hbytes]

/-- The first `send` is interrupted, the others take two bytes. -/
def interruptedOnce : Nat → Send
  | 0 => .eintr
  | _ + 1 => .wrote 2

/-- Three bytes are sent in two pieces and arrive in two others, with a fourth byte behind them; or the stream
ends after the first. -/
theorem transfer_exact_threeBytes :
    (∃ calls, ∀ more, writeBuf [1, 2, 3] 0 [] (firstSends interruptedOnce (calls + more)) =
      some ⟨some 3, [1, 2, 3], firstSends (fun i => interruptedOnce (calls + i)) more⟩) ∧
    (∃ rest, readN .error 3 [] ([.data 1 [], .eintr, .data 2 [3, 4]] ++ [.eof]) = (.count [1, 2, 3], rest ++ [.eof]) ∧
      Clean rest ∧ bytesOf rest = [4]) ∧
    readN .eof 3 [] [.eintr, .data 1 []] = (.count [1], []) := by
  have hgoes : ∀ i, (interruptedOnce i).Goes := by
    intro i
    cases i with
    | zero => trivial
    | succ i => exact (by decide : 1 ≤ 2)
  have hfin : {i | interruptedOnce i = .eintr}.Finite := by
    refine (Set.finite_singleton 0).subset ?_
    intro i hi
    cases i with
    | zero => rfl
    | succ i => cases hi
  obtain ⟨hwrite, hread, hshort⟩ := transfer_exact [1, 2, 3] interruptedOnce hgoes hfin
  exact ⟨hwrite, hread .error _ [4] [.eof] (by simp [Clean]) rfl,
    (hshort [.eintr, .data 1 []] 1 (by simp [Clean]) (by decide) rfl).1⟩

end PulseLink
