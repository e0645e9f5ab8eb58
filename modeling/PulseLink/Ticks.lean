import PulseLink.ClientWorker

/-! Timeouts inserted into a script of `recv` outcomes. `Reader` follows the script the way the worker
does: a header of 12 bytes, then the payload if the header is acceptable. A timeout between two packets
costs the worker nothing but a tick; inside a packet `read_n` gives up the bytes it has. -/

namespace PulseLink

/-! ### Where a reader stands -/

/-- Where a reader stands: in a header of which it has some bytes, in a payload of which some are missing,
or it has given up. -/
inductive Phase where
  | header (got : List UInt8)
  | payload (missing : Nat)
  | over
  deriving DecidableEq, Repr

/-- A reader: where it stands, and the timeouts since the last complete header. -/
structure Reader where
  phase : Phase
  ticks : Nat
  deriving DecidableEq, Repr

/-- What follows a complete header: its payload, if the header is acceptable and announces one. -/
def Phase.afterHeader (host : Bytes.Endian) (hdr : List UInt8) : Phase :=
  let h := plParseHeader host hdr
  if checkHeader h = none ∧ h.payloadLen > 0 then .payload h.payloadLen.toNat else .header []

namespace Reader

variable (host : Bytes.Endian)

def byte (r : Reader) (b : UInt8) : Reader :=
  match r.phase with
  | .header got =>
      if got.length + 1 < PL_HDR_SIZE then { r with phase := .header (got ++ [b]) }
      else ⟨.afterHeader host (got ++ [b]), 0⟩
  | .payload missing => { r with phase := if missing ≤ 1 then .header [] else .payload (missing - 1) }
  | .over => r

def bytes (r : Reader) (bs : List UInt8) : Reader := bs.foldl (byte host) r

/-- One `recv` outcome. A timeout in a header loses its bytes, one in a payload ends the connection. -/
def next (r : Reader) : Recv → Reader
  | .data b bs => r.bytes host (b :: bs)
  | .eintr => r
  | .eagain =>
      match r.phase with
      | .header _ => ⟨.header [], r.ticks + 1⟩
      | _ => { r with phase := .over }
  | .eof => { r with phase := .over }
  | .error => { r with phase := .over }

/-- The bytes of a header and what follows them. -/
theorem bytes_header {got bs : List UInt8} (hgot : got.length < PL_HDR_SIZE) (k : Nat) :
    Reader.bytes host ⟨.header got, k⟩ bs =
      if got.length + bs.length < PL_HDR_SIZE then ⟨.header (got ++ bs), k⟩
      else Reader.bytes host ⟨.afterHeader host (got ++ bs.take (PL_HDR_SIZE - got.length)), 0⟩
        (bs.drop (PL_HDR_SIZE - got.length)) := by
  induction bs generalizing got with
  | nil => rw [if_pos (by simpa using hgot), List.append_nil]; rfl
  | cons b bs ih =>
      show Reader.bytes host (Reader.byte host ⟨.header got, k⟩ b) bs = _
      rw [byte]
      simp only
      by_cases hmore : got.length + 1 < PL_HDR_SIZE
      · have hlen : (got ++ [b]).length = got.length + 1 := by simp
        obtain ⟨m, hm⟩ : ∃ m, PL_HDR_SIZE - got.length = m + 1 := ⟨PL_HDR_SIZE - got.length - 1, by omega⟩
        have hm' : PL_HDR_SIZE - (got.length + 1) = m := by omega
        rw [if_pos hmore, ih (by rw [hlen]; exact hmore), hlen, hm, hm', List.length_cons,
          List.take_succ_cons, List.drop_succ_cons, List.append_assoc, List.append_assoc]
        simp only [Nat.add_assoc, Nat.add_comm 1 bs.length, List.singleton_append]
      · have hone : PL_HDR_SIZE - got.length = 1 := by omega
        rw [if_neg hmore, if_neg (by rw [List.length_cons]; omega), hone]
        rfl

/-- The bytes of a payload and what follows them. -/
theorem bytes_payload {m : Nat} (hm : 0 < m) (k : Nat) (bs : List UInt8) :
    Reader.bytes host ⟨.payload m, k⟩ bs =
      if bs.length < m then ⟨.payload (m - bs.length), k⟩
      else Reader.bytes host ⟨.header [], k⟩ (bs.drop m) := by
  induction bs generalizing m with
  | nil => rw [List.length_nil, if_pos hm]; rfl
  | cons b bs ih =>
      show Reader.bytes host (Reader.byte host ⟨.payload m, k⟩ b) bs = _
      rw [byte]
      simp only
      by_cases hone : m ≤ 1
      · obtain rfl : m = 1 := by omega
        rw [if_pos hone, if_neg (by rw [List.length_cons]; omega)]
        rfl
      · obtain ⟨m', rfl⟩ : ∃ m', m = m' + 1 := ⟨m - 1, by omega⟩
        rw [if_neg hone, Nat.add_sub_cancel, ih (by omega), List.length_cons, List.drop_succ_cons]
        simp only [Nat.add_lt_add_iff_right, Nat.add_sub_add_right]

end Reader

/-! ### Inserted timeouts -/

/-- A script in which the places of inserted timeouts are marked `none`. -/
abbrev Marked := List (Option Recv)

/-- The script without the inserted timeouts. -/
def original (ms : Marked) : List Recv := ms.filterMap id

/-- The script with them. -/
def ticked (ms : Marked) : List Recv := ms.map fun m => m.getD .eagain

@[simp] theorem original_none (ms : Marked) : original (none :: ms) = original ms := rfl

@[simp] theorem original_some (x : Recv) (ms : Marked) : original (some x :: ms) = x :: original ms := rfl

@[simp] theorem ticked_none (ms : Marked) : ticked (none :: ms) = .eagain :: ticked ms := rfl

@[simp] theorem ticked_some (x : Recv) (ms : Marked) : ticked (some x :: ms) = x :: ticked ms := rfl

theorem original_append (ms ms' : Marked) : original (ms ++ ms') = original ms ++ original ms' :=
  List.filterMap_append

theorem ticked_append (ms ms' : Marked) : ticked (ms ++ ms') = ticked ms ++ ticked ms' := List.map_append

/-- Every inserted timeout comes when no byte of the next packet has been read. -/
def BetweenPackets (host : Bytes.Endian) : Reader → Marked → Prop
  | _, [] => True
  | r, none :: ms => r.phase = .header [] ∧ BetweenPackets host (r.next host .eagain) ms
  | r, some x :: ms => BetweenPackets host (r.next host x) ms

/-- No timeout is the last the worker waits for: counted from the last complete header there are fewer
than `DEAD_PEER_S / WORKER_TICK_S`. -/
def FewTicks (host : Bytes.Endian) : Reader → List Recv → Prop
  | _, [] => True
  | r, x :: script =>
      (x = .eagain → r.phase ≠ .over → (r.ticks + 1) * WORKER_TICK_S < DEAD_PEER_S) ∧
        FewTicks host (r.next host x) script

instance decidableBetweenPackets (host : Bytes.Endian) :
    ∀ (r : Reader) (ms : Marked), Decidable (BetweenPackets host r ms)
  | _, [] => isTrue trivial
  | r, none :: ms =>
      have := decidableBetweenPackets host (r.next host .eagain) ms
      inferInstanceAs (Decidable (_ ∧ _))
  | r, some x :: ms => decidableBetweenPackets host (r.next host x) ms

instance decidableFewTicks (host : Bytes.Endian) :
    ∀ (r : Reader) (script : List Recv), Decidable (FewTicks host r script)
  | _, [] => isTrue trivial
  | r, x :: script =>
      have := decidableFewTicks host (r.next host x) script
      inferInstanceAs (Decidable (_ ∧ _))

/-- The bytes of an arrival; one for any other outcome. -/
def Recv.size : Recv → Nat
  | .data _ bs => bs.length + 1
  | _ => 1

theorem Recv.size_pos (x : Recv) : 0 < x.size := by
  cases x <;> exact Nat.succ_pos _

def scriptSize (script : List Recv) : Nat := (script.map Recv.size).sum

@[simp] theorem scriptSize_cons (x : Recv) (script : List Recv) :
    scriptSize (x :: script) = x.size + scriptSize script := by
  simp [scriptSize]

/-- Bytes of an arrival left in front of a marked script. -/
def keep : List UInt8 → Marked → Marked
  | [], ms => ms
  | b :: bs, ms => some (.data b bs) :: ms

theorem original_keep (bs : List UInt8) (ms : Marked) : original (keep bs ms) = unread bs (original ms) := by
  cases bs <;> rfl

theorem ticked_keep (bs : List UInt8) (ms : Marked) : ticked (keep bs ms) = unread bs (ticked ms) := by
  cases bs <;> rfl

theorem betweenPackets_keep (host : Bytes.Endian) (r : Reader) (bs : List UInt8) (ms : Marked) :
    BetweenPackets host r (keep bs ms) ↔ BetweenPackets host (r.bytes host bs) ms := by
  cases bs <;> rfl

theorem fewTicks_unread (host : Bytes.Endian) (r : Reader) (bs : List UInt8) (script : List Recv) :
    FewTicks host r (unread bs script) ↔ FewTicks host (r.bytes host bs) script := by
  cases bs with
  | nil => rfl
  | cons b bs => exact and_iff_right nofun

theorem scriptSize_unread (bs : List UInt8) (script : List Recv) :
    scriptSize (unread bs script) = bs.length + scriptSize script := by
  cases bs with
  | nil => exact (Nat.zero_add _).symm
  | cons b bs => exact scriptSize_cons _ _

/-- A marked script whose timeouts come between packets and are few, seen from a reader. -/
structure Fits (host : Bytes.Endian) (r : Reader) (ms : Marked) : Prop where
  between : BetweenPackets host r ms
  few : FewTicks host r (ticked ms)

section Reads

variable {host : Bytes.Endian} {after : Afterwards}

theorem Fits.tail {r : Reader} {x : Recv} {ms : Marked} (hfits : Fits host r (some x :: ms)) :
    Fits host (r.next host x) ms :=
  ⟨hfits.between, hfits.few.2⟩

theorem fits_keep {r : Reader} {bs : List UInt8} {ms : Marked} :
    Fits host r (keep bs ms) ↔ Fits host (r.bytes host bs) ms := by
  constructor
  · rintro ⟨hbetween, hfew⟩
    rw [ticked_keep, fewTicks_unread] at hfew
    exact ⟨(betweenPackets_keep host r bs ms).mp hbetween, hfew⟩
  · rintro ⟨hbetween, hfew⟩
    refine ⟨(betweenPackets_keep host r bs ms).mpr hbetween, ?_⟩
    rw [ticked_keep, fewTicks_unread]
    exact hfew

/-! ### Reading a header -/

/-- How the same header read goes without and with the inserted timeouts. -/
inductive HeaderRead (host : Bytes.Endian) (after : Afterwards) (got : List UInt8) (k : Nat)
    (ms : Marked) : Prop where
  /-- an inserted timeout interrupts it before the first byte -/
  | tick (ms₀ : Marked) (hgot : got = [])
      (hread : readN after PL_HDR_SIZE [] (original ms) = readN after PL_HDR_SIZE [] (original ms₀))
      (hread' : readN after PL_HDR_SIZE [] (ticked ms) = (.again [], ticked ms₀))
      (hfew : (k + 1) * WORKER_TICK_S < DEAD_PEER_S) (hfits : Fits host ⟨.header [], k + 1⟩ ms₀)
      (hsize : scriptSize (ticked ms₀) < scriptSize (ticked ms))
  /-- both read the header -/
  | full (hdr : List UInt8) (ms₀ : Marked) (hlen : hdr.length = PL_HDR_SIZE)
      (hread : readN after PL_HDR_SIZE got (original ms) = (.count hdr, original ms₀))
      (hread' : readN after PL_HDR_SIZE got (ticked ms) = (.count hdr, ticked ms₀))
      (hfits : Fits host ⟨.afterHeader host hdr, 0⟩ ms₀)
      (hsize : scriptSize (ticked ms₀) < scriptSize (ticked ms))
  /-- a timeout of the script itself interrupts both -/
  | lost (bs : List UInt8) (ms₀ : Marked)
      (hread : readN after PL_HDR_SIZE got (original ms) = (.again bs, original ms₀))
      (hread' : readN after PL_HDR_SIZE got (ticked ms) = (.again bs, ticked ms₀))
      (hfew : (k + 1) * WORKER_TICK_S < DEAD_PEER_S) (hfits : Fits host ⟨.header [], k + 1⟩ ms₀)
      (hsize : scriptSize (ticked ms₀) < scriptSize (ticked ms))
  /-- the scripts are used up and only timeouts follow -/
  | idle (bs : List UInt8) (hafter : after = .eagain)
      (hread : readN after PL_HDR_SIZE got (original ms) = (.again bs, []))
      (hread' : readN after PL_HDR_SIZE got (ticked ms) = (.again bs, []))
  /-- both end the connection -/
  | ends (result : ReadResult) (ms₀ : Marked)
      (hread : readN after PL_HDR_SIZE got (original ms) = (result, original ms₀))
      (hread' : readN after PL_HDR_SIZE got (ticked ms) = (result, ticked ms₀))
      (hend : (∃ bs, result = .count bs ∧ bs.length < PL_HDR_SIZE) ∨ ∃ bs, result = .failed bs)

theorem headerRead_nil {got : List UInt8} (hgot : got.length < PL_HDR_SIZE) (k : Nat) :
    HeaderRead host after got k [] := by
  cases after with
  | eof =>
      have hread : readN .eof PL_HDR_SIZE got [] = (.count got, []) := by rw [readN, if_pos hgot]
      exact .ends _ [] hread hread (Or.inl ⟨got, rfl, hgot⟩)
  | eagain =>
      have hread : readN .eagain PL_HDR_SIZE got [] = (.again got, []) := by rw [readN, if_pos hgot]
      exact .idle got rfl hread hread
  | error =>
      have hread : readN .error PL_HDR_SIZE got [] = (.failed got, []) := by rw [readN, if_pos hgot]
      exact .ends _ [] hread hread (Or.inr ⟨got, rfl⟩)

theorem scriptSize_ticked_le (x : Recv) (ms : Marked) :
    scriptSize (ticked ms) ≤ scriptSize (ticked (some x :: ms)) := by
  rw [ticked_some, scriptSize_cons]
  exact Nat.le_add_left _ _

/-- An outcome both reads take in before they go on. -/
theorem HeaderRead.prepend {got got' : List UInt8} {k : Nat} {x : Recv} {ms : Marked}
    (hnext : readN after PL_HDR_SIZE got (x :: original ms) = readN after PL_HDR_SIZE got' (original ms))
    (hnext' : readN after PL_HDR_SIZE got (x :: ticked ms) = readN after PL_HDR_SIZE got' (ticked ms))
    (hnil : got' = [] → got = []) (hheader : HeaderRead host after got' k ms) :
    HeaderRead host after got k (some x :: ms) := by
  have hgrow := scriptSize_ticked_le x ms
  rw [← original_some] at hnext
  rw [← ticked_some] at hnext'
  cases hheader with
  | tick ms₀ hgot' hread hread' hfew hfits hsize =>
      obtain rfl := hnil hgot'
      subst hgot'
      exact .tick ms₀ rfl (hnext.trans hread) (hnext'.trans hread') hfew hfits (hsize.trans_le hgrow)
  | full hdr ms₀ hlen hread hread' hfits hsize =>
      exact .full hdr ms₀ hlen (hnext.trans hread) (hnext'.trans hread') hfits (hsize.trans_le hgrow)
  | lost bs ms₀ hread hread' hfew hfits hsize =>
      exact .lost bs ms₀ (hnext.trans hread) (hnext'.trans hread') hfew hfits (hsize.trans_le hgrow)
  | idle bs hafter hread hread' => exact .idle bs hafter (hnext.trans hread) (hnext'.trans hread')
  | ends result ms₀ hread hread' hend => exact .ends result ms₀ (hnext.trans hread) (hnext'.trans hread') hend

/-- An arrival that completes the header. -/
theorem headerRead_complete {got : List UInt8} (hgot : got.length < PL_HDR_SIZE) {k : Nat} {b : UInt8}
    {bs : List UInt8} (hfull : PL_HDR_SIZE ≤ got.length + (b :: bs).length) {ms : Marked}
    (hfits : Fits host ⟨.header got, k⟩ (some (.data b bs) :: ms)) :
    HeaderRead host after got k (some (.data b bs) :: ms) := by
  have hread := readN_enough after PL_HDR_SIZE hgot hfull
  refine .full (got ++ (b :: bs).take (PL_HDR_SIZE - got.length))
    (keep ((b :: bs).drop (PL_HDR_SIZE - got.length)) ms) ?_ ?_ ?_ ?_ ?_
  · rw [List.length_append, List.length_take]
    omega
  · rw [original_some, original_keep]
    exact hread _
  · rw [ticked_some, ticked_keep]
    exact hread _
  · have htail := hfits.tail
    rw [Reader.next, Reader.bytes_header host hgot, if_neg (by omega)] at htail
    exact fits_keep.mpr htail
  · rw [ticked_keep, scriptSize_unread, ticked_some, scriptSize_cons, Recv.size, List.length_drop]
    rw [List.length_cons] at hfull ⊢
    omega

/-- A header read on a script with timeouts between packets. -/
theorem headerRead {got : List UInt8} (hgot : got.length < PL_HDR_SIZE) {k : Nat} {ms : Marked}
    (hfits : Fits host ⟨.header got, k⟩ ms) : HeaderRead host after got k ms := by
  induction ms generalizing got with
  | nil => exact headerRead_nil hgot k
  | cons m ms ih =>
      cases m with
      | none =>
          obtain ⟨hbetween, hfew⟩ := hfits
          obtain rfl : got = [] := Phase.header.inj hbetween.1
          refine .tick ms rfl rfl ?_ (hfew.1 rfl (fun h => by cases h)) ⟨hbetween.2, hfew.2⟩ ?_
          · rw [ticked_none, readN, if_pos hgot]
          · rw [ticked_none, scriptSize_cons]
            exact Nat.lt_add_of_pos_left (Recv.size_pos _)
      | some x =>
          cases x with
          | eintr =>
              refine HeaderRead.prepend ?_ ?_ id (ih hgot hfits.tail)
              · rw [readN, if_pos hgot]
              · rw [readN, if_pos hgot]
          | eagain =>
              refine .lost got ms ?_ ?_ (hfits.few.1 rfl (fun h => by cases h)) hfits.tail ?_
              · rw [original_some, readN, if_pos hgot]
              · rw [ticked_some, readN, if_pos hgot]
              · rw [ticked_some, scriptSize_cons]
                exact Nat.lt_add_of_pos_left (Recv.size_pos _)
          | eof =>
              refine .ends (.count got) ms ?_ ?_ (Or.inl ⟨got, rfl, hgot⟩)
              · rw [original_some, readN, if_pos hgot]
              · rw [ticked_some, readN, if_pos hgot]
          | error =>
              refine .ends (.failed got) ms ?_ ?_ (Or.inr ⟨got, rfl⟩)
              · rw [original_some, readN, if_pos hgot]
              · rw [ticked_some, readN, if_pos hgot]
          | data b bs =>
              by_cases hmore : got.length + (b :: bs).length < PL_HDR_SIZE
              · have hlen : (got ++ b :: bs).length < PL_HDR_SIZE := by rwa [List.length_append]
                have htail := hfits.tail
                rw [Reader.next, Reader.bytes_header host hgot, if_pos hmore] at htail
                refine HeaderRead.prepend ?_ ?_ (by simp) (ih hlen htail)
                · rw [readN, if_pos hgot]
                  simp only [if_pos hmore.le]
                · rw [readN, if_pos hgot]
                  simp only [if_pos hmore.le]
              · exact headerRead_complete hgot (Nat.not_lt.mp hmore) hfits

/-! ### Reading a payload -/

/-- How the same payload read goes without and with the inserted timeouts. -/
inductive PayloadRead (host : Bytes.Endian) (after : Afterwards) (n : Nat) (got : List UInt8) (k : Nat)
    (ms : Marked) : Prop where
  /-- both read the payload -/
  | full (bs : List UInt8) (ms₀ : Marked) (hlen : bs.length = n)
      (hread : readN after n got (original ms) = (.count bs, original ms₀))
      (hread' : readN after n got (ticked ms) = (.count bs, ticked ms₀))
      (hfits : Fits host ⟨.header [], k⟩ ms₀) (hsize : scriptSize (ticked ms₀) ≤ scriptSize (ticked ms))
  /-- both end the connection -/
  | ends (result : ReadResult) (ms₀ : Marked) (hread : readN after n got (original ms) = (result, original ms₀))
      (hread' : readN after n got (ticked ms) = (result, ticked ms₀))
      (hend : ∀ bs, result = .count bs → bs.length ≠ n)

theorem payloadRead_nil {n : Nat} {got : List UInt8} (hgot : got.length < n) (k : Nat) :
    PayloadRead host after n got k [] := by
  cases after with
  | eof =>
      have hread : readN .eof n got [] = (.count got, []) := by rw [readN, if_pos hgot]
      refine .ends _ [] hread hread ?_
      rintro bs hbs
      cases hbs
      exact hgot.ne
  | eagain =>
      have hread : readN .eagain n got [] = (.again got, []) := by rw [readN, if_pos hgot]
      exact .ends _ [] hread hread (fun _ h => by cases h)
  | error =>
      have hread : readN .error n got [] = (.failed got, []) := by rw [readN, if_pos hgot]
      exact .ends _ [] hread hread (fun _ h => by cases h)

theorem PayloadRead.prepend {n : Nat} {got got' : List UInt8} {k : Nat} {x : Recv} {ms : Marked}
    (hnext : readN after n got (x :: original ms) = readN after n got' (original ms))
    (hnext' : readN after n got (x :: ticked ms) = readN after n got' (ticked ms))
    (hpayload : PayloadRead host after n got' k ms) : PayloadRead host after n got k (some x :: ms) := by
  have hgrow := scriptSize_ticked_le x ms
  rw [← original_some] at hnext
  rw [← ticked_some] at hnext'
  cases hpayload with
  | full bs ms₀ hlen hread hread' hfits hsize =>
      exact .full bs ms₀ hlen (hnext.trans hread) (hnext'.trans hread') hfits (hsize.trans hgrow)
  | ends result ms₀ hread hread' hend => exact .ends result ms₀ (hnext.trans hread) (hnext'.trans hread') hend

/-- An arrival that completes the payload. -/
theorem payloadRead_complete {n m : Nat} {got : List UInt8} (hn : n = got.length + m) (hm : 0 < m) {k : Nat}
    {b : UInt8} {bs : List UInt8} (hfull : m ≤ (b :: bs).length) {ms : Marked}
    (hfits : Fits host ⟨.payload m, k⟩ (some (.data b bs) :: ms)) :
    PayloadRead host after n got k (some (.data b bs) :: ms) := by
  have hsub : n - got.length = m := by omega
  have hread := readN_enough after n (show got.length < n by omega)
    (show n ≤ got.length + (b :: bs).length by omega)
  rw [hsub] at hread
  refine .full (got ++ (b :: bs).take m) (keep ((b :: bs).drop m) ms) ?_ ?_ ?_ ?_ ?_
  · rw [List.length_append, List.length_take]
    omega
  · rw [original_some, original_keep]
    exact hread _
  · rw [ticked_some, ticked_keep]
    exact hread _
  · have htail := hfits.tail
    rw [Reader.next, Reader.bytes_payload host hm, if_neg (by omega)] at htail
    exact fits_keep.mpr htail
  · rw [ticked_keep, scriptSize_unread, ticked_some, scriptSize_cons, Recv.size, List.length_drop,
      List.length_cons]
    omega

/-- A payload read: no timeout was inserted into it. -/
theorem payloadRead {n m : Nat} {got : List UInt8} (hn : n = got.length + m) (hm : 0 < m) {k : Nat}
    {ms : Marked} (hfits : Fits host ⟨.payload m, k⟩ ms) : PayloadRead host after n got k ms := by
  induction ms generalizing got m with
  | nil => exact payloadRead_nil (by omega) k
  | cons x ms ih =>
      have hgot : got.length < n := by omega
      cases x with
      | none => cases hfits.between.1
      | some x =>
          cases x with
          | eintr =>
              refine PayloadRead.prepend ?_ ?_ (ih hn hm hfits.tail)
              · rw [readN, if_pos hgot]
              · rw [readN, if_pos hgot]
          | eagain =>
              refine .ends (.again got) ms ?_ ?_ (fun _ h => by cases h)
              · rw [original_some, readN, if_pos hgot]
              · rw [ticked_some, readN, if_pos hgot]
          | eof =>
              refine .ends (.count got) ms ?_ ?_ ?_
              · rw [original_some, readN, if_pos hgot]
              · rw [ticked_some, readN, if_pos hgot]
              · rintro bs hbs
                cases hbs
                exact hgot.ne
          | error =>
              refine .ends (.failed got) ms ?_ ?_ (fun _ h => by cases h)
              · rw [original_some, readN, if_pos hgot]
              · rw [ticked_some, readN, if_pos hgot]
          | data b bs =>
              by_cases hmore : (b :: bs).length < m
              · have htail := hfits.tail
                rw [Reader.next, Reader.bytes_payload host hm, if_pos hmore] at htail
                have hlen : n = (got ++ b :: bs).length + (m - (b :: bs).length) := by
                  rw [List.length_append]
                  omega
                refine PayloadRead.prepend ?_ ?_ (ih hlen (by omega) htail)
                · rw [readN, if_pos hgot]
                  simp only [if_pos (show got.length + (b :: bs).length ≤ n by omega)]
                · rw [readN, if_pos hgot]
                  simp only [if_pos (show got.length + (b :: bs).length ≤ n by omega)]
              · exact payloadRead_complete hn hm (Nat.not_lt.mp hmore) hfits

end Reads

end PulseLink
