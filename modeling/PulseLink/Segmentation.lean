import PulseLink.BaseTwoRuns
import PulseLink.Listener
import PulseLink.Session

/-! TCP carries bytes, not messages: how they are cut into arrivals, and how often a `recv` is interrupted, is
not for the server to notice. What a reader can tell apart is the order of the bytes and of the answers without
bytes between them; `read_n` reads that sequence one item at a time. So two servers whose connections carry the
same sequences take the same steps, whatever the bytes are. -/

namespace PulseLink

/-! ### What a reader can tell apart -/

/-- A byte of a stream, or one of the answers without bytes that end a `read_n`. -/
inductive Arrival where
  | byte (b : UInt8)
  | eof
  | eagain
  | error
  deriving DecidableEq, Repr

/-- The sequence a script brings; where an arrival ends and where a call is interrupted is not part of it. -/
def arrivals : List Recv → List Arrival
  | [] => []
  | .data b bs :: rest => (b :: bs).map .byte ++ arrivals rest
  | .eof :: rest => .eof :: arrivals rest
  | .eintr :: rest => arrivals rest
  | .eagain :: rest => .eagain :: arrivals rest
  | .error :: rest => .error :: arrivals rest

/-- What `read_n` returns when the script is used up. -/
def Afterwards.ends (after : Afterwards) (got : List UInt8) : ReadResult :=
  match after with
  | .eof => .count got
  | .eagain => .again got
  | .error => .failed got

/-- Reading `missing` more bytes one at a time, with `got` in the buffer. -/
def readEach (after : Afterwards) : Nat → List UInt8 → List Arrival → ReadResult × List Arrival
  | 0, got, rest => (.count got, rest)
  | _ + 1, got, [] => (after.ends got, [])
  | missing + 1, got, .byte b :: rest => readEach after missing (got ++ [b]) rest
  | _ + 1, got, .eof :: rest => (.count got, rest)
  | _ + 1, got, .eagain :: rest => (.again got, rest)
  | _ + 1, got, .error :: rest => (.failed got, rest)

theorem arrivals_unread (bs : List UInt8) (rest : List Recv) :
    arrivals (unread bs rest) = bs.map .byte ++ arrivals rest := by
  cases bs with
  | nil => rfl
  | cons b bs => rfl

/-- A run of bytes that does not bring more than is missing. -/
theorem readEach_bytes (after : Afterwards) {missing : Nat} {bs : List UInt8} (hle : bs.length ≤ missing)
    (got : List UInt8) (rest : List Arrival) :
    readEach after missing got (bs.map .byte ++ rest) = readEach after (missing - bs.length) (got ++ bs) rest := by
  induction bs generalizing missing got with
  | nil => simp
  | cons b bs ih =>
      rw [List.length_cons] at hle
      obtain ⟨m, rfl⟩ : ∃ m, missing = m + 1 := ⟨missing - 1, by omega⟩
      have hstep : readEach after (m + 1) got ((b :: bs).map .byte ++ rest) =
          readEach after m (got ++ [b]) (bs.map .byte ++ rest) := rfl
      rw [hstep, ih (by omega), List.append_assoc, List.singleton_append, List.length_cons, Nat.add_sub_add_right]

/-- A run of bytes that brings at least what is missing. -/
theorem readEach_enough (after : Afterwards) {missing : Nat} {bs : List UInt8} (hle : missing ≤ bs.length)
    (got : List UInt8) (rest : List Arrival) :
    readEach after missing got (bs.map .byte ++ rest) =
      (.count (got ++ bs.take missing), (bs.drop missing).map .byte ++ rest) := by
  have hlen : (bs.take missing).length = missing := List.length_take_of_le hle
  calc readEach after missing got (bs.map .byte ++ rest)
    _ = readEach after missing got ((bs.take missing).map .byte ++ ((bs.drop missing).map .byte ++ rest)) := by
        rw [← List.append_assoc, ← List.map_append, List.take_append_drop]
    _ = readEach after 0 (got ++ bs.take missing) ((bs.drop missing).map .byte ++ rest) := by
        rw [readEach_bytes after (Nat.le_of_eq hlen), hlen, Nat.sub_self]
    _ = _ := by rw [readEach]

/-- **`read_n` reads one item at a time.** -/
theorem readN_readEach (after : Afterwards) (n : Nat) (got : List UInt8) (script : List Recv) :
    ((readN after n got script).1, arrivals (readN after n got script).2) =
      readEach after (n - got.length) got (arrivals script) := by
  induction script generalizing got with
  | nil =>
      by_cases hmore : got.length < n
      · obtain ⟨m, hm⟩ : ∃ m, n - got.length = m + 1 := ⟨n - got.length - 1, by omega⟩
        rw [hm]
        cases after <;> rw [readN, if_pos hmore] <;> rfl
      · rw [readN_full after n (by omega), Nat.sub_eq_zero_of_le (by omega), readEach]
  | cons r rest ih =>
      by_cases hmore : got.length < n
      · obtain ⟨m, hm⟩ : ∃ m, n - got.length = m + 1 := ⟨n - got.length - 1, by omega⟩
        cases r with
        | data b bs =>
            rw [arrivals]
            by_cases hfits : got.length + (b :: bs).length ≤ n
            · rw [readN, if_pos hmore]
              simp only [if_pos hfits]
              rw [ih, readEach_bytes after (by omega), List.length_append, Nat.sub_add_eq]
            · rw [readN_enough after n hmore (by omega), readEach_enough after (by omega), arrivals_unread]
        | eintr =>
            rw [readN, if_pos hmore]
            exact ih got
        | eof => rw [readN, if_pos hmore, hm, arrivals, readEach]
        | eagain => rw [readN, if_pos hmore, hm, arrivals, readEach]
        | error => rw [readN, if_pos hmore, hm, arrivals, readEach]
      · rw [readN_full after n (by omega), Nat.sub_eq_zero_of_le (by omega), readEach]

/-! ### The server -/

/-- The connections carry the same and differ in how it arrives. -/
structure SameStream (conn conn' : Conn) : Prop where
  arrivals : arrivals conn'.script = arrivals conn.script
  rest : { conn' with script := conn.script } = conn

theorem sameStream_refl (conn : Conn) : SameStream conn conn := ⟨rfl, rfl⟩

theorem SameStream.cut {conn : Conn} {script script' : List Recv} (hsame : PulseLink.arrivals script' =
    PulseLink.arrivals script) : SameStream { conn with script := script } { conn with script := script' } :=
  ⟨hsame, rfl⟩

theorem SameStream.eq {conn conn' : Conn} (hsame : SameStream conn conn') :
    conn' = { conn with script := conn'.script } := by
  rw [← hsame.rest]

theorem serverHandler_sameStream (o : ServerOp) {conn conn' : Conn} (ctx : ServerCtx)
    (hsame : SameStream conn conn') :
    (serverHandler o (conn', ctx)).1 = (serverHandler o (conn, ctx)).1 ∧
      (serverHandler o (conn', ctx)).2.2 = (serverHandler o (conn, ctx)).2.2 ∧
      SameStream (serverHandler o (conn, ctx)).2.1 (serverHandler o (conn', ctx)).2.1 := by
  obtain ⟨script', rfl, harrivals⟩ : ∃ script', conn' = { conn with script := script' } ∧
      arrivals script' = arrivals conn.script := ⟨conn'.script, hsame.eq, hsame.arrivals⟩
  have hkeeps : ∀ conn₁ : Conn, conn₁.script = conn.script →
      SameStream conn₁ { conn₁ with script := script' } := by
    intro conn₁ hscript
    exact ⟨harrivals.trans (congrArg arrivals hscript.symm), rfl⟩
  cases o with
  | readN n =>
      have hread := (readN_readEach conn.after n [] script').trans
        ((congrArg (readEach conn.after n []) harrivals).trans (readN_readEach conn.after n [] conn.script).symm)
      obtain ⟨hresult, hrest⟩ := Prod.mk.inj hread
      exact ⟨hresult, rfl, .cut hrest⟩
  | writeFile path bytes =>
      simp only [serverHandler]
      split <;> exact ⟨rfl, rfl, hkeeps conn rfl⟩
  | writeN bs => exact ⟨rfl, rfl, hkeeps _ rfl⟩
  | closeFd => exact ⟨rfl, rfl, hkeeps _ rfl⟩
  | freeArg => exact ⟨rfl, rfl, hkeeps _ rfl⟩
  | _ => exact ⟨rfl, rfl, hkeeps conn rfl⟩

theorem hostHandler_sameStream : Pool.Respects hostHandler SameStream := by
  intro o conn conn' s hsame
  have hserve : ∀ o : ServerOp, o ≠ .loadRunning → ∀ cfd,
      (hostHandler (.serve cfd o) (conn', s)).1 = (hostHandler (.serve cfd o) (conn, s)).1 ∧
        (hostHandler (.serve cfd o) (conn', s)).2.2 = (hostHandler (.serve cfd o) (conn, s)).2.2 ∧
        SameStream (hostHandler (.serve cfd o) (conn, s)).2.1 (hostHandler (.serve cfd o) (conn', s)).2.1 := by
    intro o ho cfd
    obtain ⟨hans, hctx, hconn⟩ := serverHandler_sameStream o s.ctx hsame
    have hhost : ∀ conn, hostHandler (.serve cfd o) (conn, s) =
        ((serverHandler o (conn, s.ctx)).1, (serverHandler o (conn, s.ctx)).2.1,
          { s with ctx := (serverHandler o (conn, s.ctx)).2.2 }) := by
      intro conn
      cases o <;> first | rfl | exact absurd rfl ho
    rw [hhost, hhost]
    exact ⟨hans, by simp only [hctx], hconn⟩
  cases o with
  | serve cfd o =>
      by_cases ho : o = .loadRunning
      · subst ho
        exact ⟨rfl, rfl, hsame⟩
      · exact hserve o ho cfd
  | poll =>
      simp only [hostHandler]
      split <;> exact ⟨rfl, rfl, hsame⟩
  | accept =>
      simp only [hostHandler]
      split_ifs <;> exact ⟨rfl, rfl, hsame⟩
  | semTrywait cfd =>
      simp only [hostHandler]
      split_ifs <;> exact ⟨rfl, rfl, hsame⟩
  | _ => exact ⟨rfl, rfl, hsame⟩

/-- The same server, with other scripts for its connections. -/
def Boot.recut (boot : Boot) (scripts : Nat → List Recv) : Boot :=
  { boot with conns := fun cfd => { boot.conns cfd with script := scripts cfd } }

theorem mayStep_alongside {pool pool' : HostPool} (party : Party)
    (halong : Pool.Alongside SameStream pool pool') : mayStep pool' party = mayStep pool party := by
  cases party with
  | listener => rfl
  | signal => rfl
  | worker cfd => rw [mayStep, mayStep, halong.shared]
  | main => rw [mayStep, mayStep, halong.threads]

/-- **Segmentation does not matter.** If the connections of two servers carry the same bytes with the same
timeouts, errors and ends between them, then however the bytes are cut into arrivals and wherever calls are
interrupted, the same schedule takes the two servers through the same operations with the same answers, to the
same shared state, with the same bytes sent on every connection. This holds for any bytes at all. -/
theorem segmentation_irrelevant (boot : Boot) (scripts : Nat → List Recv)
    (hsame : ∀ cfd, arrivals (scripts cfd) = arrivals (boot.conns cfd).script) (schedule : List Party) :
    ((boot.recut scripts).run schedule).log = (boot.run schedule).log ∧
      ((boot.recut scripts).run schedule).threads = (boot.run schedule).threads ∧
      ((boot.recut scripts).run schedule).shared = (boot.run schedule).shared ∧
      ∀ i, (((boot.recut scripts).run schedule).locals i).sent = ((boot.run schedule).locals i).sent := by
  have hstart : Pool.Alongside SameStream
      (Pool.start (hostBody boot.cfg) boot.place boot.conn boot.host : HostPool)
      (Pool.start (hostBody boot.cfg) boot.place (boot.recut scripts).conn boot.host) := by
    refine ⟨rfl, fun i => ?_, rfl, rfl⟩
    cases i with
    | worker cfd => exact ⟨hsame cfd, rfl⟩
    | listener | signal | main => exact sameStream_refl _
  have halong : Pool.Alongside SameStream (boot.run schedule) ((boot.recut scripts).run schedule) :=
    hstart.gatedRun hostHandler_sameStream (fun _ _ party halong => mayStep_alongside party halong) schedule
  refine ⟨halong.log, halong.threads, halong.shared, fun i => ?_⟩
  rw [(halong.locals i).eq]

/-- A server for one client that sends the first three bytes of a header and closes the connection. -/
def threeBytes : Boot where
  cfg := ⟨.little, none⟩
  maxClients := 1
  payloads _ := zeroPayload
  conns _ := scripted [.data 0x50 [0x4C, 0x01]]
  ctx := freshServer
  choices := ⟨[], [.ready false true], [], [], []⟩

/-- The same bytes one by one, with an interrupted call between them. -/
def bytewise (_ : Nat) : List Recv := [.data 0x50 [], .eintr, .data 0x4C [], .data 0x01 []]

/-- The listener hands the connection over and the worker runs to its end. -/
def acceptAndServe : List Party := List.replicate 9 .listener ++ List.replicate 12 (.worker 0)

theorem segmentation_irrelevant_bytewise :
    arrivals (bytewise 0) = arrivals (threeBytes.conns 0).script ∧
      ((threeBytes.recut bytewise).run acceptAndServe).log = (threeBytes.run acceptAndServe).log :=
  ⟨rfl, (segmentation_irrelevant threeBytes bytewise (fun _ => rfl) acceptAndServe).1⟩

end PulseLink
