import PulseLink.Isolation
import PulseLink.Segmentation

/-! The replies of the server at the other end of the line, after `recv_packet` of `tools/fake_client.c`. A worker
sends three kinds of packets and leaves no byte between them, so at every moment of every run what has gone out on
a connection is a sequence of whole packets. A peer that takes them with `recv_packet` gets the same packets in the
same order, however TCP has cut them; a receive timeout between two packets costs it nothing. -/

namespace PulseLink

open Bytes Proc

/-! ### What a worker sends -/

/-- **Every write of `client_worker` is one reply.** -/
theorem clientWorker_speaks (cfg : Config) (pc : WorkerPc) : (clientWorker cfg pc).Uses Speaks := by
  cases pc with
  | enter payload => exact Within.perform trivial fun _ => trivial
  | running l =>
      exact Uses.bind ((clientTurn_turning cfg l).mono (fun _ ho => ho.2.2) fun _ _ => trivial) fun _ => trivial
  | leave why =>
      exact Within.perform trivial fun _ => Within.perform trivial fun _ => Within.perform trivial fun _ =>
        Within.perform trivial fun _ => trivial

theorem server_worker_speaks (boot : Boot) (schedule : List Party) (cfd : Nat) :
    ∀ e ∈ clientEvents (boot.run schedule) cfd, Speaks e.op := by
  obtain ⟨th, hstands⟩ := server_worker_stands boot schedule cfd
  obtain ⟨turns, hevents, hturns⟩ := hstands.turns (P := fun _ => True) (fun _ _ _ _ _ => trivial) trivial
  intro e he
  rw [clientEvents, hevents] at he
  obtain ⟨turn, hturn, he⟩ := List.mem_flatten.mp he
  obtain ⟨pc, q, -, hreach⟩ := hturns turn hturn
  exact (clientWorker_speaks boot.cfg pc).reach hreach e he

/-- The replies of a trace. -/
theorem repliesOf_speaks {t : List (Event ServerSig)} (ht : ∀ e ∈ t, Speaks e.op) :
    ∃ replies : List Reply, repliesOf t = replies.map Reply.wire := by
  induction t with
  | nil => exact ⟨[], rfl⟩
  | cons e t ih =>
      obtain ⟨replies, hreplies⟩ := ih fun e' he' => ht e' (List.mem_cons_of_mem _ he')
      have he := ht e List.mem_cons_self
      obtain ⟨o, ans⟩ := e
      cases o with
      | writeN bs =>
          obtain ⟨r, rfl⟩ := he
          exact ⟨r :: replies, congrArg (r.wire :: ·) hreplies⟩
      | _ => exact ⟨replies, hreplies⟩

/-- A line on which no `send` fails carries the replies of its worker, whole and in order. -/
theorem line_sent {t : List (Event ServerSig)} {line line' : Line} (haccepts : lineMonitor.Accepts line t line')
    (hsends : ∀ s ∈ line.sends, s ≠ .failed) : line'.sent = line.sent ++ (repliesOf t).flatten := by
  induction haccepts with
  | nil line => rw [repliesOf, List.filterMap_nil, List.flatten_nil, List.append_nil]
  | @cons line line₁ line₂ e t hmove hrest ih =>
      obtain ⟨o, ans⟩ := e
      cases o with
      | writeN bs =>
          obtain ⟨left, hwrite, hsub⟩ := writeN_ok (Nat.zero_le bs.length) hsends
          simp only [lineMonitor, hwrite] at hmove
          split_ifs at hmove
          cases hmove
          rw [ih fun s hs => hsends s (hsub hs)]
          show line.sent ++ bs.take bs.length ++ _ = line.sent ++ (bs :: repliesOf t).flatten
          rw [List.take_length, List.flatten_cons, List.append_assoc]
      | readN n =>
          simp only [lineMonitor] at hmove
          split_ifs at hmove
          cases hmove
          exact ih hsends
      | _ =>
          cases hmove
          exact ih hsends

/-! ### `recv_packet` -/

/-- The answer of `recv_packet`: the header and the payload of a packet, whose type it returns, 0 at the end of
the line, or -1. -/
inductive Received where
  | packet (h : PlHeader) (payload : List UInt8)
  | closed
  | failed
  deriving DecidableEq, Repr

/-- `recv_packet`. -/
def recvPacket (host : Endian) (after : Afterwards) (script : List Recv) : Received × List Recv :=
  let hdr := readN after PL_HDR_SIZE [] script
  match hdr.1 with
  | .count got =>
      if got.length = 0 then (.closed, hdr.2)
      else if got.length ≠ PL_HDR_SIZE then (.failed, hdr.2)
      else
        let h := plParseHeader host got
        if h.payloadLen > PL_MAX_PAYLOAD then (.failed, hdr.2)
        else if h.payloadLen ≠ 0 then
          let body := readN after h.payloadLen.toNat [] hdr.2
          match body.1 with
          | .count got =>
              if got.length = h.payloadLen.toNat then (.packet h got, body.2)
              else (if got.length = 0 then .closed else .failed, body.2)
          | _ => (.failed, body.2)
        else (.packet h [], hdr.2)
  | _ => (.failed, hdr.2)

/-- What `n` calls of `recv_packet` return, one after the other. -/
def recvPackets (host : Endian) (after : Afterwards) : Nat → List Recv → List Received
  | 0, _ => []
  | n + 1, script => (recvPacket host after script).1 :: recvPackets host after n (recvPacket host after script).2

/-- The next bytes of a line, however they are cut. -/
theorem readN_arrivals (after : Afterwards) {script : List Recv} {bs : List UInt8} {rest : List Arrival}
    (hscript : arrivals script = bs.map .byte ++ rest) :
    ∃ left, readN after bs.length [] script = (.count bs, left) ∧ arrivals left = rest := by
  have hread := readN_readEach after bs.length [] script
  rw [hscript, List.length_nil, Nat.sub_zero, readEach_enough after (Nat.le_refl _), List.take_length, List.drop_length,
    List.nil_append, List.map_nil, List.nil_append] at hread
  obtain ⟨hcount, hrest⟩ := Prod.mk.inj hread
  exact ⟨_, Prod.ext hcount rfl, hrest⟩

/-- A packet is taken whole, and nothing behind it. -/
theorem recvPacket_packet (host : Endian) (after : Afterwards) {script : List Recv} {type : UInt8} {deviceId : UInt32}
    {payload : List UInt8} (hlen : payload.length ≤ 1100) {rest : List Arrival}
    (hscript : arrivals script = (packetBytes type deviceId payload).map .byte ++ rest) :
    ∃ left, recvPacket host after script = (.packet (builtHeader type deviceId payload) payload, left) ∧
      arrivals left = rest := by
  have hplen : (UInt16.ofNat payload.length).toNat = payload.length := by
    rw [UInt16.toNat_ofNat']
    exact Nat.mod_eq_of_lt (by omega)
  obtain ⟨h, hh⟩ : ∃ h, h = builtHeader type deviceId payload := ⟨_, rfl⟩
  have hhlen : h.payloadLen.toNat = payload.length := by rw [hh]; exact hplen
  have hwire : h.wire.length = PL_HDR_SIZE := h.length_wire
  have hhead : arrivals script = h.wire.map .byte ++ (payload.map .byte ++ rest) := by
    rw [hscript, packetBytes, ← hh, List.map_append, List.append_assoc]
  obtain ⟨left, hread, hleft⟩ := readN_arrivals after hhead
  have hparse : plParseHeader host h.wire = h := by
    have hparsed := plParseHeader_wire host h []
    rwa [List.append_nil] at hparsed
  have hsmall : ¬ h.payloadLen > PL_MAX_PAYLOAD := by
    rw [gt_iff_lt, UInt16.lt_iff_toNat_lt, hhlen]
    exact Nat.not_lt.mpr hlen
  rw [hwire] at hread
  rw [recvPacket, hread, ← hh]
  simp only [hwire, hparse, if_neg hsmall]
  rw [if_neg (by decide), if_neg (by simp)]
  by_cases hnone : h.payloadLen = 0
  · have hnil : payload = [] := by
      rw [← List.length_eq_zero_iff, ← hhlen, hnone]
      rfl
    rw [if_neg (not_not.mpr hnone)]
    rw [hnil] at hleft ⊢
    exact ⟨left, rfl, hleft⟩
  · obtain ⟨left', hread', hleft'⟩ := readN_arrivals after hleft
    rw [if_pos hnone, hhlen, hread']
    simp only [if_pos]
    exact ⟨left', rfl, hleft'⟩

/-- A timeout between two packets. -/
theorem recvPacket_tick (host : Endian) (after : Afterwards) {script : List Recv} {rest : List Arrival}
    (hscript : arrivals script = .eagain :: rest) :
    ∃ left, recvPacket host after script = (.failed, left) ∧ arrivals left = rest := by
  have hread := readN_readEach after PL_HDR_SIZE [] script
  rw [hscript] at hread
  obtain ⟨hagain, hrest⟩ := Prod.mk.inj hread
  refine ⟨(readN after PL_HDR_SIZE [] script).2, ?_, hrest⟩
  rw [recvPacket, hagain]

/-- The end of the line. -/
theorem recvPacket_end (host : Endian) {script : List Recv} (hscript : arrivals script = []) :
    ∃ left, recvPacket host .eof script = (.closed, left) ∧ arrivals left = [] := by
  have hread := readN_readEach .eof PL_HDR_SIZE [] script
  rw [hscript] at hread
  obtain ⟨hcount, hrest⟩ := Prod.mk.inj hread
  refine ⟨(readN .eof PL_HDR_SIZE [] script).2, ?_, hrest⟩
  rw [recvPacket, hcount]
  rfl

/-! ### The replies arrive -/

/-- What a peer finds on its line: a reply, or that the time for one is up. -/
def Reply.onLine : Option Reply → List Arrival
  | some r => r.wire.map .byte
  | none => [.eagain]

/-- And what `recv_packet` makes of it. -/
def Reply.received : Option Reply → Received
  | some r => .packet r.header r.payload
  | none => .failed

theorem recvPackets_end (host : Endian) (n : Nat) {script : List Recv} (hscript : arrivals script = []) :
    recvPackets host .eof n script = List.replicate n .closed := by
  induction n generalizing script with
  | zero => rfl
  | succ n ih =>
      obtain ⟨left, hrecv, hleft⟩ := recvPacket_end host hscript
      rw [recvPackets, hrecv, ih hleft, List.replicate_succ]

theorem recvPackets_items (host : Endian) (items : List (Option Reply)) (n : Nat) {script : List Recv}
    (hscript : arrivals script = items.flatMap Reply.onLine) :
    recvPackets host .eof (items.length + n) script = items.map Reply.received ++ List.replicate n .closed := by
  induction items generalizing script with
  | nil =>
      rw [List.length_nil, Nat.zero_add]
      exact recvPackets_end host n hscript
  | cons item items ih =>
      have hhead : ∃ left, recvPacket host .eof script = (Reply.received item, left) ∧
          arrivals left = items.flatMap Reply.onLine := by
        rw [List.flatMap_cons] at hscript
        cases item with
        | none => exact recvPacket_tick host .eof hscript
        | some r => exact recvPacket_packet host .eof (Nat.le_trans r.payload_length (by decide)) hscript
      obtain ⟨left, hrecv, hleft⟩ := hhead
      rw [List.length_cons, Nat.add_right_comm, recvPackets, hrecv, ih hleft]
      rfl

/-- **The replies arrive.** At every moment of every run of the server, what a connection on which no `send` fails
has carried to the peer is a sequence of whole replies. However they are cut on the way, and with any number of
receive timeouts between them, `recv_packet` returns the replies one by one and in order, -1 for each timeout, and
0 from there on once the line is closed. -/
theorem replies_received (boot : Boot) (schedule : List Party) (cfd : Nat)
    (hsends : ∀ s ∈ (boot.conns cfd).sends, s ≠ .failed) :
    ∃ replies : List Reply,
      repliesOf (clientEvents (boot.run schedule) cfd) = replies.map Reply.wire ∧
      ((boot.run schedule).locals (.worker cfd)).sent = (boot.conns cfd).sent ++ replies.flatMap Reply.wire ∧
      ∀ (peer : Endian) (items : List (Option Reply)) (script : List Recv) (n : Nat),
        items.reduceOption = replies → arrivals script = items.flatMap Reply.onLine →
        recvPackets peer .eof (items.length + n) script =
          items.map Reply.received ++ List.replicate n .closed := by
  obtain ⟨replies, hreplies⟩ := repliesOf_speaks (server_worker_speaks boot schedule cfd)
  refine ⟨replies, hreplies, ?_, fun peer items script n _ hscript => recvPackets_items peer items n hscript⟩
  have hsent := line_sent (server_line boot schedule cfd) hsends
  rw [hreplies, ← List.flatMap_def] at hsent
  exact hsent

/-- The client of `oneHello` gets its HELLO_ACK. -/
theorem replies_received_hello :
    repliesOf (clientEvents (oneHello.run serveOne) 0) = [(Reply.helloAck 7 1).wire] ∧
      ∃ replies : List Reply, repliesOf (clientEvents (oneHello.run serveOne) 0) = replies.map Reply.wire ∧
        ∀ script, arrivals script = (none :: replies.map some).flatMap Reply.onLine →
          recvPackets .big .eof ((none :: replies.map some).length + 1) script =
            (none :: replies.map some).map Reply.received ++ [.closed] := by
  obtain ⟨replies, hreplies, -, hreceived⟩ := replies_received oneHello serveOne 0 (by decide)
  refine ⟨by decide +kernel, replies, hreplies, fun script hscript => ?_⟩
  exact hreceived .big (none :: replies.map some) script 1 (by simp [List.reduceOption]) hscript

end PulseLink
