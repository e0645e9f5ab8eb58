import PulseLink.Protocol

/-! Packet framing, after `common/wire.c`: `pl_build` copies a packed header struct in network order in
front of the payload, `pl_parse_header` copies it back. Both go through the memory of the host, so they
are stated for either byte order; on the wire the two agree. -/

namespace PulseLink

open Bytes

/-- The packed `pl_header_t` as it lies in host memory. -/
def PlHeader.mem (host : Endian) (h : PlHeader) : List UInt8 :=
  mem16 host h.magic ++ ([h.version, h.type] ++
    (mem32 host h.deviceId ++ (mem16 host h.payloadLen ++ mem16 host h.checksum)))

/-- `pl_build`: the bytes written to `out`, or `none` when the packet does not fit and nothing is. -/
def plBuild (host : Endian) (outcap : Nat) (type : UInt8) (deviceId : UInt32)
    (payload : List UInt8) (plen : UInt16) : Option (List UInt8) :=
  let total := PL_HDR_SIZE + plen.toNat
  if total > outcap then none
  else
    let h : PlHeader :=
      { magic := htons host PL_MAGIC
        version := PL_VERSION
        type := type
        deviceId := htonl host deviceId
        payloadLen := htons host plen
        checksum := htons host (plChecksum (payload.take plen.toNat)) }
    some (h.mem host ++ payload.take plen.toNat)

/-- `pl_parse_header`. -/
def plParseHeader (host : Endian) (hdr : List UInt8) : PlHeader where
  magic := htons host (load16 host hdr 0)
  version := hdr.getD 2 0
  type := hdr.getD 3 0
  deviceId := htonl host (load32 host hdr 4)
  payloadLen := htons host (load16 host hdr 8)
  checksum := htons host (load16 host hdr 10)

/-- The header a builder puts in front of a payload. -/
def builtHeader (type : UInt8) (deviceId : UInt32) (payload : List UInt8) : PlHeader where
  magic := PL_MAGIC
  version := PL_VERSION
  type := type
  deviceId := deviceId
  payloadLen := UInt16.ofNat payload.length
  checksum := plChecksum payload

/-- A packet on the wire: the header for the payload, then the payload. -/
def packetBytes (type : UInt8) (deviceId : UInt32) (payload : List UInt8) : List UInt8 :=
  (builtHeader type deviceId payload).wire ++ payload

theorem plBuild_eq (host : Endian) (outcap : Nat) (type : UInt8) (deviceId : UInt32)
    (payload : List UInt8) (plen : UInt16) (hlen : payload.length = plen.toNat)
    (hfit : PL_HDR_SIZE + plen.toNat ≤ outcap) :
    plBuild host outcap type deviceId payload plen = some (packetBytes type deviceId payload) := by
  have htake : payload.take plen.toNat = payload := List.take_of_length_le (by omega)
  have hplen : UInt16.ofNat payload.length = plen := by rw [hlen, UInt16.ofNat_toNat]
  rw [plBuild, if_neg (by omega), htake]
  simp only [PlHeader.mem, mem16_htons, mem32_htonl, packetBytes, PlHeader.wire, builtHeader, hplen]

/-- On either host the parser reads every field big-endian. -/
theorem plParseHeader_eq (host : Endian) (hdr : List UInt8) :
    plParseHeader host hdr =
      { magic := rdBe16 hdr 0
        version := hdr.getD 2 0
        type := hdr.getD 3 0
        deviceId := rdBe32 hdr 4
        payloadLen := rdBe16 hdr 8
        checksum := rdBe16 hdr 10 } := by
  simp only [plParseHeader, htons_load16, htonl_load32]

/-- Parsing reads back the header that was put on the wire. -/
theorem plParseHeader_wire (host : Endian) (h : PlHeader) (rest : List UInt8) :
    plParseHeader host (h.wire ++ rest) = h := by
  have hmagic : rdBe16 (h.wire ++ rest) 0 = h.magic := rdBe16_append [] _ _ rfl
  have hid : rdBe32 (h.wire ++ rest) 4 = h.deviceId :=
    rdBe32_append (be16 h.magic ++ [h.version, h.type]) _ _ rfl
  have hlen : rdBe16 (h.wire ++ rest) 8 = h.payloadLen :=
    rdBe16_append (be16 h.magic ++ [h.version, h.type] ++ be32 h.deviceId) _ _ rfl
  have hsum : rdBe16 (h.wire ++ rest) 10 = h.checksum :=
    rdBe16_append (be16 h.magic ++ [h.version, h.type] ++ be32 h.deviceId ++ be16 h.payloadLen) _ _ rfl
  rw [plParseHeader_eq, hmagic, hid, hlen, hsum]
  rfl

/-- Twelve bytes are the wire form of the header parsed from them. -/
theorem wire_plParseHeader (host : Endian) (hdr : List UInt8) (hlen : hdr.length = PL_HDR_SIZE) :
    (plParseHeader host hdr).wire = hdr := by
  match hdr, hlen with
  | [b0, b1, b2, b3, b4, b5, b6, b7, b8, b9, b10, b11], _ =>
      rw [plParseHeader_eq, PlHeader.wire]
      simp only [rdBe16, rdBe32, be16_word16, be32_word32]
      rfl

/-! ### The format as a bijection -/

theorem plBuild_none {host : Endian} {outcap : Nat} {type : UInt8} {deviceId : UInt32}
    {payload : List UInt8} {plen : UInt16} (hsmall : outcap < PL_HDR_SIZE + plen.toNat) :
    plBuild host outcap type deviceId payload plen = none := by
  rw [plBuild, if_pos hsmall]

theorem length_packetBytes (type : UInt8) (deviceId : UInt32) (payload : List UInt8) :
    (packetBytes type deviceId payload).length = PL_HDR_SIZE + payload.length := by
  rw [packetBytes, List.length_append, PlHeader.length_wire]

/-- The parser looks at the first twelve bytes only. -/
theorem plParseHeader_take (host : Endian) {bs : List UInt8} (hlen : PL_HDR_SIZE ≤ bs.length) :
    plParseHeader host (bs.take PL_HDR_SIZE) = plParseHeader host bs := by
  have hhdr : (bs.take PL_HDR_SIZE).length = PL_HDR_SIZE := List.length_take_of_le hlen
  have hparse := plParseHeader_wire host (plParseHeader host (bs.take PL_HDR_SIZE)) (bs.drop PL_HDR_SIZE)
  rw [wire_plParseHeader host _ hhdr, List.take_append_drop] at hparse
  exact hparse.symm

/-- A string whose header has the right magic, version, length and checksum is the packet built from the
fields and the payload read off it. -/
theorem packetBytes_parsed (host : Endian) {bs : List UInt8}
    (hlen : bs.length = PL_HDR_SIZE + (plParseHeader host bs).payloadLen.toNat)
    (hmagic : (plParseHeader host bs).magic = PL_MAGIC)
    (hversion : (plParseHeader host bs).version = PL_VERSION)
    (hsum : plChecksum (bs.drop PL_HDR_SIZE) = (plParseHeader host bs).checksum) :
    packetBytes (plParseHeader host bs).type (plParseHeader host bs).deviceId (bs.drop PL_HDR_SIZE) = bs := by
  have hhdr : (bs.take PL_HDR_SIZE).length = PL_HDR_SIZE := by
    rw [List.length_take]
    omega
  have hsplit : plParseHeader host (bs.take PL_HDR_SIZE) = plParseHeader host bs :=
    plParseHeader_take host (by omega)
  have hplen : UInt16.ofNat (bs.drop PL_HDR_SIZE).length = (plParseHeader host bs).payloadLen := by
    rw [List.length_drop, hlen, Nat.add_sub_cancel_left, UInt16.ofNat_toNat]
  have hbuilt : builtHeader (plParseHeader host bs).type (plParseHeader host bs).deviceId
      (bs.drop PL_HDR_SIZE) = plParseHeader host bs := by
    rw [builtHeader, ← hmagic, ← hversion, hplen, hsum]
  rw [packetBytes, hbuilt, ← hsplit, wire_plParseHeader host _ hhdr, List.take_append_drop]

/-- **The wire format is a bijection.** `pl_build` refuses a buffer that is too small; otherwise what it
writes is 12 bytes longer than the payload, ends with the payload and parses back to its arguments, with a
checksum that verifies. Conversely every string that parses to such a header is what `pl_build` makes of
its own fields. The builder and the parser may run on hosts of different byte order. -/
theorem wire_bijection (host peer : Endian) :
    (∀ (outcap : Nat) (type : UInt8) (deviceId : UInt32) (payload : List UInt8), payload.length ≤ 65535 →
      let built := plBuild host outcap type deviceId payload (UInt16.ofNat payload.length)
      (outcap < PL_HDR_SIZE + payload.length → built = none) ∧
      (PL_HDR_SIZE + payload.length ≤ outcap → ∃ bs, built = some bs ∧
        bs.length = PL_HDR_SIZE + payload.length ∧ bs.drop PL_HDR_SIZE = payload ∧
        (plParseHeader peer bs).magic = PL_MAGIC ∧ (plParseHeader peer bs).version = PL_VERSION ∧
        (plParseHeader peer bs).type = type ∧ (plParseHeader peer bs).deviceId = deviceId ∧
        (plParseHeader peer bs).payloadLen.toNat = payload.length ∧
        plChecksum (bs.drop PL_HDR_SIZE) = (plParseHeader peer bs).checksum)) ∧
    (∀ (outcap : Nat) (bs : List UInt8),
      let h := plParseHeader peer bs
      bs.length = PL_HDR_SIZE + h.payloadLen.toNat → h.magic = PL_MAGIC → h.version = PL_VERSION →
      plChecksum (bs.drop PL_HDR_SIZE) = h.checksum → bs.length ≤ outcap →
      plBuild host outcap h.type h.deviceId (bs.drop PL_HDR_SIZE) h.payloadLen = some bs) := by
  constructor
  · intro outcap type deviceId payload hmax built
    have hplen : (UInt16.ofNat payload.length).toNat = payload.length :=
      UInt16.toNat_ofNat_of_lt' (by show _ < 2 ^ 16; omega)
    refine ⟨fun hsmall => plBuild_none (by rw [hplen]; exact hsmall), fun hfit => ?_⟩
    have hparse : plParseHeader peer (packetBytes type deviceId payload) = builtHeader type deviceId payload :=
      plParseHeader_wire peer _ payload
    have hdrop : (packetBytes type deviceId payload).drop PL_HDR_SIZE = payload :=
      List.drop_left' (PlHeader.length_wire _)
    refine ⟨_, plBuild_eq host outcap type deviceId payload _ hplen.symm (by rw [hplen]; exact hfit),
      length_packetBytes type deviceId payload, hdrop, ?_⟩
    rw [hparse, hdrop]
    exact ⟨rfl, rfl, rfl, rfl, hplen, rfl⟩
  · intro outcap bs h hlen hmagic hversion hsum hcap
    have hpayload : (bs.drop PL_HDR_SIZE).length = h.payloadLen.toNat := by
      rw [List.length_drop, hlen, Nat.add_sub_cancel_left]
    rw [plBuild_eq host outcap h.type h.deviceId _ _ hpayload (by omega),
      packetBytes_parsed peer hlen hmagic hversion hsum]

/-- A packet whose checksum field is the ones'-complement zero `0xFFFF`, and a buffer too small for it. -/
theorem wire_bijection_zeroPayload :
    plBuild .little 14 9 77 [0, 0, 0] 3 = none ∧
      plBuild .little 15 9 77 [0, 0, 0] 3 =
        some [0x50, 0x4C, 1, 9, 0, 0, 0, 77, 0, 3, 0xFF, 0xFF, 0, 0, 0] :=
  ⟨((wire_bijection .little .big).1 14 9 77 [0, 0, 0] (by decide)).1 (by decide),
    (wire_bijection .little .big).2 15 [0x50, 0x4C, 1, 9, 0, 0, 0, 77, 0, 3, 0xFF, 0xFF, 0, 0, 0]
      (by decide) (by decide) (by decide) (by decide) (by decide)⟩

end PulseLink
