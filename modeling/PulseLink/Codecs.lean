import PulseLink.Frame

/-! The codecs of the two ends, side by side. The server fills a packed payload struct with `htonl` and
hands its memory to `pl_build`; the firmware and the imaging code write every byte themselves. On either
host the packets are the same, and the two header parsers read the same fields. -/

namespace PulseLink

open Bytes

/-! ### Payload structs in host memory -/

/-- A `pl_sensor_payload_t` with every field in network order. -/
def plSensorPayload (host : Endian) (r : Reading) : List UInt8 :=
  mem32 host (htonl host r.seq) ++ (mem32 host (htonl host r.timestampMs) ++
    (mem32 host (htonl host r.temperature.toUInt32) ++ mem32 host (htonl host r.humidity.toUInt32)))

/-- A `pl_hello_payload_t` with every field in network order. -/
def plHelloPayload (host : Endian) (firmwareVersion capabilities : UInt32) : List UInt8 :=
  mem32 host (htonl host firmwareVersion) ++ mem32 host (htonl host capabilities)

/-- A `pl_heartbeat_payload_t` with every field in network order. -/
def plHeartbeatPayload (host : Endian) (uptimeMs freeHeap : UInt32) : List UInt8 :=
  mem32 host (htonl host uptimeMs) ++ mem32 host (htonl host freeHeap)

/-- A `pl_frame_header_t` with every field in network order. -/
def plFrameHeader (host : Endian) (width height : UInt16) (frameSeq : UInt32)
    (chunkIdx chunkCount : UInt16) : List UInt8 :=
  mem16 host (htons host width) ++ (mem16 host (htons host height) ++
    (mem32 host (htonl host frameSeq) ++
      (mem16 host (htons host chunkIdx) ++ mem16 host (htons host chunkCount))))

section

variable (host : Endian)

theorem plSensorPayload_eq (r : Reading) : plSensorPayload host r = sensorPayload r := by
  simp only [plSensorPayload, mem32_htonl, sensorPayload]

theorem plHelloPayload_eq (firmwareVersion capabilities : UInt32) :
    plHelloPayload host firmwareVersion capabilities = helloPayload firmwareVersion capabilities := by
  simp only [plHelloPayload, mem32_htonl, helloPayload]

theorem plHeartbeatPayload_eq (uptimeMs freeHeap : UInt32) :
    plHeartbeatPayload host uptimeMs freeHeap = heartbeatPayload uptimeMs freeHeap := by
  simp only [plHeartbeatPayload, mem32_htonl, heartbeatPayload]

theorem plFrameHeader_eq (width height : UInt16) (frameSeq : UInt32) (chunkIdx chunkCount : UInt16) :
    plFrameHeader host width height frameSeq chunkIdx chunkCount =
      frameHeader width height frameSeq chunkIdx chunkCount := by
  simp only [plFrameHeader, mem16_htons, mem32_htonl, frameHeader]

/-! ### One packet format -/

/-- The header a builder writes byte by byte is the packed struct `pl_build` copies. -/
theorem putHeader_eq_mem (type : UInt8) (deviceId : UInt32) (payload : List UInt8) (plen : UInt16) :
    putHeader type deviceId payload plen =
      PlHeader.mem host ⟨htons host PL_MAGIC, PL_VERSION, type, htonl host deviceId, htons host plen,
        htons host (plChecksum (payload.take plen.toNat))⟩ := by
  simp only [PlHeader.mem, mem16_htons, mem32_htonl, putHeader]

/-- The firmware's builders agree with `pl_build` on every buffer. -/
theorem fwPacket_eq_plBuild (cap : Nat) (type : PktType) (deviceId : UInt32) {payload : List UInt8}
    {plen : UInt16} (hlen : payload.length ≤ plen.toNat) :
    fwPacket cap type deviceId payload plen = plBuild host cap type.code deviceId payload plen := by
  have htake : payload.take plen.toNat = payload := List.take_of_length_le hlen
  simp only [fwPacket, plBuild, gt_iff_lt, putHeader_eq_mem host, htake]

/-- `frame_chunk_build` lays out its packet as the firmware's builders do. -/
theorem frameChunkBuild_eq_fwPacket (cap : Nat) (deviceId : UInt32) (width height : UInt16)
    (frameSeq : UInt32) (chunkIdx chunkCount : UInt16) (chunk : List UInt8) {chunkLen : UInt16}
    (hmax : chunkLen.toNat ≤ FRAME_CHUNK_MAX) :
    frameChunkBuild cap deviceId width height frameSeq chunkIdx chunkCount chunk chunkLen =
      fwPacket cap .frame deviceId
        (frameHeader width height frameSeq chunkIdx chunkCount ++ chunk.take chunkLen.toNat)
        (12 + chunkLen) := by
  rw [frameChunkBuild, if_neg (Nat.not_lt.mpr hmax)]
  rfl

theorem length_frame_payload_le (width height : UInt16) (frameSeq : UInt32)
    (chunkIdx chunkCount : UInt16) (chunk : List UInt8) {chunkLen : UInt16}
    (hmax : chunkLen.toNat ≤ FRAME_CHUNK_MAX) :
    (frameHeader width height frameSeq chunkIdx chunkCount ++ chunk.take chunkLen.toNat).length ≤
      (12 + chunkLen).toNat := by
  have hhdr : (frameHeader width height frameSeq chunkIdx chunkCount).length = 12 := rfl
  rw [List.length_append, hhdr, List.length_take, toNat_frame_plen hmax]
  omega

theorem fwPacket_isSome_iff (cap : Nat) (type : PktType) (deviceId : UInt32) (payload : List UInt8)
    (plen : UInt16) :
    (fwPacket cap type deviceId payload plen).isSome ↔ PL_HDR_SIZE + plen.toNat ≤ cap := by
  rw [fwPacket]
  split_ifs with hsmall
  · simp only [Option.isSome_none, Bool.false_eq_true, false_iff]
    omega
  · simp only [Option.isSome_some, true_iff]
    omega

end

/-- **Independent codecs agree.** On every buffer, and on a host of either byte order, the firmware's
builders and `frame_chunk_build` write what `pl_build` makes of the corresponding payload struct, and they
do write it once the buffer is large enough. The firmware's header parser accepts exactly the headers in
which `pl_parse_header` finds the magic and the version, and reads the same fields. -/
theorem codecs_agree (host : Endian) :
    (∀ cap deviceId (r : Reading),
      plBuildSensor cap deviceId r =
        plBuild host cap PktType.sensor.code deviceId (plSensorPayload host r) 16 ∧
      ((plBuildSensor cap deviceId r).isSome ↔ 28 ≤ cap)) ∧
    (∀ cap deviceId firmwareVersion capabilities,
      plBuildHello cap deviceId firmwareVersion capabilities =
        plBuild host cap PktType.hello.code deviceId (plHelloPayload host firmwareVersion capabilities) 8 ∧
      ((plBuildHello cap deviceId firmwareVersion capabilities).isSome ↔ 20 ≤ cap)) ∧
    (∀ cap deviceId uptimeMs freeHeap,
      plBuildHeartbeat cap deviceId uptimeMs freeHeap =
        plBuild host cap PktType.heartbeat.code deviceId (plHeartbeatPayload host uptimeMs freeHeap) 8 ∧
      ((plBuildHeartbeat cap deviceId uptimeMs freeHeap).isSome ↔ 20 ≤ cap)) ∧
    (∀ cap deviceId width height frameSeq chunkIdx chunkCount chunk (chunkLen : UInt16),
      chunkLen.toNat ≤ 1024 →
      frameChunkBuild cap deviceId width height frameSeq chunkIdx chunkCount chunk chunkLen =
        plBuild host cap PktType.frame.code deviceId
          (plFrameHeader host width height frameSeq chunkIdx chunkCount ++ chunk.take chunkLen.toNat)
          (12 + chunkLen) ∧
      ((frameChunkBuild cap deviceId width height frameSeq chunkIdx chunkCount chunk chunkLen).isSome ↔
        24 + chunkLen.toNat ≤ cap)) ∧
    (∀ hdr : List UInt8, hdr.length = PL_HDR_SIZE →
      let h := plParseHeader host hdr
      ((plParseHeaderFw hdr).isSome ↔ h.magic = PL_MAGIC ∧ h.version = PL_VERSION) ∧
      ∀ out, plParseHeaderFw hdr = some out → out.type = h.type ∧ out.deviceId = h.deviceId ∧
        out.payloadLen = h.payloadLen ∧ out.checksum = h.checksum) := by
  refine ⟨?_, ?_, ?_, ?_, ?_⟩
  · intro cap deviceId r
    rw [plSensorPayload_eq]
    exact ⟨fwPacket_eq_plBuild host cap .sensor deviceId (Nat.le_refl _), fwPacket_isSome_iff ..⟩
  · intro cap deviceId firmwareVersion capabilities
    rw [plHelloPayload_eq]
    exact ⟨fwPacket_eq_plBuild host cap .hello deviceId (Nat.le_refl _), fwPacket_isSome_iff ..⟩
  · intro cap deviceId uptimeMs freeHeap
    rw [plHeartbeatPayload_eq]
    exact ⟨fwPacket_eq_plBuild host cap .heartbeat deviceId (Nat.le_refl _), fwPacket_isSome_iff ..⟩
  · intro cap deviceId width height frameSeq chunkIdx chunkCount chunk chunkLen hmax
    have hplen := toNat_frame_plen hmax
    rw [frameChunkBuild_eq_fwPacket cap deviceId width height frameSeq chunkIdx chunkCount chunk hmax,
      plFrameHeader_eq, fwPacket_isSome_iff, hplen]
    refine ⟨fwPacket_eq_plBuild host cap .frame deviceId (length_frame_payload_le _ _ _ _ _ _ hmax), ?_⟩
    show 12 + (12 + chunkLen.toNat) ≤ cap ↔ _
    omega
  · intro hdr _ h
    rw [plParseHeaderFw_eq host hdr]
    split_ifs with hgood
    · refine ⟨⟨fun _ => hgood, fun _ => rfl⟩, ?_⟩
      rintro out ⟨⟩
      exact ⟨rfl, rfl, rfl, rfl⟩
    · exact ⟨⟨fun hsome => absurd hsome Bool.false_ne_true, fun h => absurd h hgood⟩, nofun⟩

/-- A reading below zero and a chunk of two pixels, both built on a little-endian host; a header with the
right magic. -/
theorem codecs_agree_negative :
    plBuildSensor 28 5 ⟨7, 0, -512, 3300⟩ =
        plBuild .little 28 PktType.sensor.code 5 (plSensorPayload .little ⟨7, 0, -512, 3300⟩) 16 ∧
      frameChunkBuild 64 5 2 1 9 0 1 [3, 4] 2 =
        plBuild .little 64 PktType.frame.code 5 (plFrameHeader .little 2 1 9 0 1 ++ [3, 4]) 14 ∧
      (plParseHeaderFw [0x50, 0x4C, 1, 2, 0, 0, 0, 5, 0, 4, 0, 0]).isSome :=
  ⟨((codecs_agree .little).1 28 5 ⟨7, 0, -512, 3300⟩).1,
    ((codecs_agree .little).2.2.2.1 64 5 2 1 9 0 1 [3, 4] 2 (by decide)).1,
    ((codecs_agree .little).2.2.2.2 [0x50, 0x4C, 1, 2, 0, 0, 0, 5, 0, 4, 0, 0] rfl).1.mpr (by decide)⟩

end PulseLink
