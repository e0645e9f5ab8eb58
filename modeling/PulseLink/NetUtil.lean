import PulseLink.BaseBytes

/-! Exact transfers on a TCP stream, after `common/netutil.c`. What the kernel will answer is a script of
`recv` outcomes: arrivals of at least one byte, end of file, `EINTR`, the `SO_RCVTIMEO` timeout, other
errors. A `recv` takes at most what it asks for and leaves the rest of an arrival for the next one, so a
script fixes the bytes and the ticks of a connection but not how a reader cuts them. -/

namespace PulseLink

/-- One outcome the kernel has ready for `recv`. -/
inductive Recv where
  | data (first : UInt8) (more : List UInt8)
  | eof
  | eintr
  | eagain
  | error
  deriving DecidableEq, Repr

/-- What `recv` answers once the script is used up, for ever. -/
inductive Afterwards where
  | eof
  | eagain
  | error
  deriving DecidableEq, Repr

/-- The answer of one `recv` call: the bytes it stored, or why there are none. -/
inductive RecvResult where
  | bytes (bs : List UInt8)
  | zero
  | eintr
  | eagain
  | error
  deriving DecidableEq, Repr

/-- The result of `read_n`: a count, or -1 with `errno` at `EAGAIN` or at something else. In each case
`got` is what lies in the buffer. -/
inductive ReadResult where
  | count (got : List UInt8)
  | again (got : List UInt8)
  | failed (got : List UInt8)
  deriving DecidableEq, Repr

/-- The bytes in the buffer. -/
def ReadResult.got : ReadResult → List UInt8
  | .count got => got
  | .again got => got
  | .failed got => got

/-- Bytes of an arrival that were not asked for stay in front of the script. -/
def unread : List UInt8 → List Recv → List Recv
  | [], rest => rest
  | b :: bs, rest => .data b bs :: rest

/-- `recv(fd, p, cap, 0)`. -/
def recv (after : Afterwards) (cap : Nat) : List Recv → RecvResult × List Recv
  | .data b bs :: rest => (.bytes ((b :: bs).take cap), unread ((b :: bs).drop cap) rest)
  | .eof :: rest => (.zero, rest)
  | .eintr :: rest => (.eintr, rest)
  | .eagain :: rest => (.eagain, rest)
  | .error :: rest => (.error, rest)
  | [] =>
      match after with
      | .eof => (.zero, [])
      | .eagain => (.eagain, [])
      | .error => (.error, [])

/-- `read_n(fd, buf, n)` with `got` already in the buffer. -/
def readN (after : Afterwards) (n : Nat) : List UInt8 → List Recv → ReadResult × List Recv
  | got, [] =>
      if got.length < n then
        match after with
        | .eof => (.count got, [])
        | .eagain => (.again got, [])
        | .error => (.failed got, [])
      else (.count got, [])
  | got, r :: rest =>
      if got.length < n then
        match r with
        | .eintr => readN after n got rest
        | .eagain => (.again got, rest)
        | .error => (.failed got, rest)
        | .eof => (.count got, rest)
        | .data b bs =>
            if got.length + (b :: bs).length ≤ n then readN after n (got ++ b :: bs) rest
            else (.count (got ++ (b :: bs).take (n - got.length)),
              unread ((b :: bs).drop (n - got.length)) rest)
      else (.count got, r :: rest)

/-- One outcome of `send`: it takes some of the bytes, is interrupted, or fails. -/
inductive Send where
  | wrote (n : Nat)
  | eintr
  | failed
  deriving DecidableEq, Repr

/-- `write_n(fd, buf, n)` with `sent` bytes already taken: whether it returns `n`, how many bytes went
out, and the outcomes not used. Once the script is used up every byte is taken. -/
def writeN (n : Nat) : Nat → List Send → Bool × Nat × List Send
  | _, [] => (true, n, [])
  | sent, s :: rest =>
      if sent < n then
        match s with
        | .eintr => writeN n sent rest
        | .failed => (false, sent, rest)
        | .wrote k => writeN n (sent + min k (n - sent)) rest
      else (true, sent, s :: rest)

section ReadN

variable (after : Afterwards) (n : Nat)

theorem readN_full {got : List UInt8} (hfull : n ≤ got.length) (script : List Recv) :
    readN after n got script = (.count got, script) := by
  cases script with
  | nil => cases after <;> rw [readN, if_neg (by omega)]
  | cons r rest => cases r <;> rw [readN, if_neg (by omega)]

/-- An arrival that brings at least the bytes that are missing. -/
theorem readN_enough {got : List UInt8} (hgot : got.length < n) {b : UInt8} {bs : List UInt8}
    (hfull : n ≤ got.length + (b :: bs).length) (script : List Recv) :
    readN after n got (.data b bs :: script) =
      (.count (got ++ (b :: bs).take (n - got.length)), unread ((b :: bs).drop (n - got.length)) script) := by
  rw [readN, if_pos hgot]
  by_cases hfit : got.length + (b :: bs).length ≤ n
  · simp only [if_pos hfit]
    rw [List.take_of_length_le (by omega), List.drop_of_length_le (by omega), unread]
    exact readN_full after n (by rw [List.length_append]; omega) script
  · simp only [if_neg hfit]

/-- The C loop: while bytes are missing, `recv` the missing ones and act on the answer. -/
theorem readN_loop (got : List UInt8) (script : List Recv) :
    readN after n got script =
      if got.length < n then
        match recv after (n - got.length) script with
        | (.bytes bs, rest) => readN after n (got ++ bs) rest
        | (.zero, rest) => (.count got, rest)
        | (.eintr, rest) => readN after n got rest
        | (.eagain, rest) => (.again got, rest)
        | (.error, rest) => (.failed got, rest)
      else (.count got, script) := by
  by_cases hmore : got.length < n
  · rw [if_pos hmore]
    cases script with
    | nil => cases after <;> rw [readN, if_pos hmore] <;> rfl
    | cons r rest =>
        cases r with
        | data b bs =>
            rw [readN, if_pos hmore]
            simp only [recv]
            split_ifs with hfits
            · rw [List.take_of_length_le (by omega), List.drop_of_length_le (by omega), unread]
            · rw [readN_full after n]
              rw [List.length_append, List.length_take]
              omega
        | eof => rw [readN, if_pos hmore, recv]
        | eintr => rw [readN, if_pos hmore, recv]
        | eagain => rw [readN, if_pos hmore, recv]
        | error => rw [readN, if_pos hmore, recv]
  · rw [if_neg hmore, readN_full after n (by omega)]

end ReadN

/-- A transfer in which no `send` fails takes the whole buffer. -/
theorem writeN_ok {n sent : Nat} (hsent : sent ≤ n) {sends : List Send}
    (hok : ∀ s ∈ sends, s ≠ .failed) :
    ∃ rest, writeN n sent sends = (true, n, rest) ∧ rest ⊆ sends := by
  induction sends generalizing sent with
  | nil => exact ⟨[], rfl, List.Subset.refl _⟩
  | cons s rest ih =>
      by_cases hmore : sent < n
      · have hrest : ∀ s ∈ rest, s ≠ .failed := fun s hs => hok s (List.mem_cons_of_mem _ hs)
        cases s with
        | failed => exact absurd rfl (hok .failed List.mem_cons_self)
        | eintr =>
            obtain ⟨left, hwrite, hsub⟩ := ih hsent hrest
            exact ⟨left, by rw [writeN, if_pos hmore, hwrite], List.subset_cons_of_subset _ hsub⟩
        | wrote k =>
            have hle : sent + min k (n - sent) ≤ n := by omega
            obtain ⟨left, hwrite, hsub⟩ := ih hle hrest
            exact ⟨left, by rw [writeN, if_pos hmore, hwrite], List.subset_cons_of_subset _ hsub⟩
      · have hdone : sent = n := by omega
        exact ⟨s :: rest, by cases s <;> rw [writeN, if_neg hmore, hdone], List.Subset.refl _⟩

/-! ### Streams without timeouts -/

/-- Only arrivals and interrupted calls. -/
def Clean (script : List Recv) : Prop := ∀ r ∈ script, (∃ b bs, r = .data b bs) ∨ r = .eintr

/-- The bytes of a script, in order. -/
def bytesOf : List Recv → List UInt8
  | [] => []
  | .data b bs :: rest => b :: bs ++ bytesOf rest
  | _ :: rest => bytesOf rest

theorem bytesOf_eintr (rest : List Recv) : bytesOf (.eintr :: rest) = bytesOf rest := rfl

theorem Clean.tail {r : Recv} {rest : List Recv} (hclean : Clean (r :: rest)) : Clean rest :=
  fun r' hr => hclean r' (List.mem_cons_of_mem _ hr)

theorem clean_unread {rest : List Recv} (hclean : Clean rest) (bs : List UInt8) :
    Clean (unread bs rest) := by
  cases bs with
  | nil => exact hclean
  | cons b bs =>
      intro r hr
      rcases List.mem_cons.mp hr with rfl | hr
      · exact Or.inl ⟨b, bs, rfl⟩
      · exact hclean r hr

theorem bytesOf_unread (bs : List UInt8) (rest : List Recv) :
    bytesOf (unread bs rest) = bs ++ bytesOf rest := by
  cases bs <;> rfl

theorem unread_append (bs : List UInt8) (rest later : List Recv) :
    unread bs rest ++ later = unread bs (rest ++ later) := by
  cases bs <;> rfl

/-- However a clean stream is cut, `read_n` delivers its next bytes and leaves the others, and whatever comes
behind them. -/
theorem readN_clean_append (after : Afterwards) (n : Nat) {script : List Recv} (hclean : Clean script)
    (later : List Recv) (got : List UInt8) (hgot : got.length ≤ n)
    (henough : n - got.length ≤ (bytesOf script).length) :
    ∃ rest, readN after n got (script ++ later) =
        (.count (got ++ (bytesOf script).take (n - got.length)), rest ++ later) ∧
      Clean rest ∧ bytesOf rest = (bytesOf script).drop (n - got.length) := by
  induction script generalizing got with
  | nil =>
      have hfull : n ≤ got.length := by
        simp only [bytesOf, List.length_nil] at henough
        omega
      refine ⟨[], ?_, hclean, ?_⟩
      · rw [readN_full after n hfull]
        simp [bytesOf]
      · simp [bytesOf]
  | cons r rest ih =>
      by_cases hmore : got.length < n
      · rcases hclean r List.mem_cons_self with ⟨b, bs, rfl⟩ | rfl
        · rw [List.cons_append, readN, if_pos hmore]
          simp only [bytesOf] at henough ⊢
          by_cases hfits : got.length + (b :: bs).length ≤ n
          · rw [if_pos hfits]
            have hlen : (got ++ b :: bs).length = got.length + (b :: bs).length :=
              List.length_append
            obtain ⟨rest', hread, hclean', hbytes⟩ := ih hclean.tail (got ++ b :: bs)
              (by omega) (by rw [List.length_append] at henough; omega)
            have hsub : n - got.length - (b :: bs).length = n - (got ++ b :: bs).length := by omega
            refine ⟨rest', ?_, hclean', ?_⟩
            · have hall : (b :: bs).take (n - got.length) = b :: bs :=
                List.take_of_length_le (by omega)
              rw [hread, List.take_append, hall, hsub, List.append_assoc]
            · have hnone : (b :: bs).drop (n - got.length) = [] :=
                List.drop_of_length_le (by omega)
              rw [hbytes, List.drop_append, hnone, hsub, List.nil_append]
          · rw [if_neg hfits]
            refine ⟨unread ((b :: bs).drop (n - got.length)) rest, ?_,
              clean_unread hclean.tail _, ?_⟩
            · rw [List.take_append_of_le_length (by omega), unread_append]
            · rw [bytesOf_unread, List.drop_append_of_le_length (by omega)]
        · rw [List.cons_append, readN, if_pos hmore]
          exact ih hclean.tail got hgot henough
      · have hzero : n - got.length = 0 := by omega
        refine ⟨r :: rest, ?_, hclean, ?_⟩
        · rw [readN_full after n (by omega), hzero, List.take_zero, List.append_nil]
        · rw [hzero, List.drop_zero]

theorem readN_clean (after : Afterwards) (n : Nat) {script : List Recv} (hclean : Clean script)
    (got : List UInt8) (hgot : got.length ≤ n)
    (henough : n - got.length ≤ (bytesOf script).length) :
    ∃ rest, readN after n got script = (.count (got ++ (bytesOf script).take (n - got.length)), rest) ∧
      Clean rest ∧ bytesOf rest = (bytesOf script).drop (n - got.length) := by
  obtain ⟨rest, hread, hrest⟩ := readN_clean_append after n hclean [] got hgot henough
  rw [List.append_nil, List.append_nil] at hread
  exact ⟨rest, hread, hrest⟩

/-- A clean stretch that does not bring the bytes asked for is taken whole, and the loop goes on behind it. -/
theorem readN_short (after : Afterwards) {n : Nat} {script : List Recv} (hclean : Clean script)
    (later : List Recv) (got : List UInt8) (hshort : got.length + (bytesOf script).length < n) :
    readN after n got (script ++ later) = readN after n (got ++ bytesOf script) later := by
  induction script generalizing got with
  | nil => rw [List.nil_append, bytesOf, List.append_nil]
  | cons r rest ih =>
      rcases hclean r List.mem_cons_self with ⟨b, bs, rfl⟩ | rfl
      · rw [bytesOf, List.length_append] at hshort
        rw [List.cons_append, readN, if_pos (by omega)]
        simp only [if_pos (show got.length + (b :: bs).length ≤ n by omega)]
        rw [ih hclean.tail (got ++ b :: bs) (by rw [List.length_append]; omega), bytesOf, List.append_assoc]
      · rw [bytesOf_eintr] at hshort
        rw [List.cons_append, readN, if_pos (by omega), bytesOf_eintr]
        exact ih hclean.tail got hshort

/-- At the end of a clean stream nothing is delivered. -/
theorem readN_clean_end (n : Nat) {script : List Recv} (hclean : Clean script)
    (hnone : bytesOf script = []) (hn : 0 < n) : readN .eof n [] script = (.count [], []) := by
  have hread := readN_short .eof hclean [] [] (n := n) (by simpa [hnone] using hn)
  rw [List.append_nil, hnone, List.append_nil] at hread
  rw [hread, readN, ite_self]

end PulseLink
