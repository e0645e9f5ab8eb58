import PulseLink.Wire

/-! The firmware's packet builders, after `firmware/telemetry.c`. They write every byte explicitly, with
no packed struct and no byte-order conversion, and produce the same packets as `pl_build`. -/

namespace PulseLink

open Bytes

/-- One sensor sample as the firmware sends it. -/
structure Reading where
  seq : UInt32
  timestampMs : UInt32
  temperature : Int32
  humidity : Int32
  deriving DecidableEq, Repr

/-- `put_header`: the 12 header bytes for a finished payload. -/
def putHeader (type : UInt8) (deviceId : UInt32) (payload : List UInt8) (plen : UInt16) : List UInt8 :=
  be16 PL_MAGIC ++ ([PL_VERSION, type] ++ (be32 deviceId ++ (be16 plen ++
    be16 (plChecksum (payload.take plen.toNat)))))

/-- The builders' common shape: nothing when the packet does not fit, else header and payload. -/
def fwPacket (cap : Nat) (type : PktType) (deviceId : UInt32) (payload : List UInt8) (plen : UInt16) :
    Option (List UInt8) :=
  if cap < PL_HDR_SIZE + plen.toNat then none
  else some (putHeader type.code deviceId payload plen ++ payload)

/-- The 16 payload bytes of a SENSOR packet. -/
def sensorPayload (r : Reading) : List UInt8 :=
  be32 r.seq ++ (be32 r.timestampMs ++ (be32 r.temperature.toUInt32 ++ be32 r.humidity.toUInt32))

/-- The 8 payload bytes of a HELLO packet. -/
def helloPayload (firmwareVersion capabilities : UInt32) : List UInt8 :=
  be32 firmwareVersion ++ be32 capabilities

/-- The 8 payload bytes of a HEARTBEAT packet. -/
def heartbeatPayload (uptimeMs freeHeap : UInt32) : List UInt8 := be32 uptimeMs ++ be32 freeHeap

/-- `pl_build_sensor`. -/
def plBuildSensor (cap : Nat) (deviceId : UInt32) (r : Reading) : Option (List UInt8) :=
  fwPacket cap .sensor deviceId (sensorPayload r) 16

/-- `pl_build_hello`. -/
def plBuildHello (cap : Nat) (deviceId firmwareVersion capabilities : UInt32) : Option (List UInt8) :=
  fwPacket cap .hello deviceId (helloPayload firmwareVersion capabilities) 8

/-- `pl_build_heartbeat`. -/
def plBuildHeartbeat (cap : Nat) (deviceId uptimeMs freeHeap : UInt32) : Option (List UInt8) :=
  fwPacket cap .heartbeat deviceId (heartbeatPayload uptimeMs freeHeap) 8

theorem fwPacket_eq {cap : Nat} {type : PktType} {deviceId : UInt32} {payload : List UInt8}
    {plen : UInt16} (hlen : payload.length = plen.toNat) (hcap : PL_HDR_SIZE + plen.toNat ≤ cap) :
    fwPacket cap type deviceId payload plen = some (packetBytes type.code deviceId payload) := by
  have htake : payload.take plen.toNat = payload := List.take_of_length_le (by omega)
  have hplen : UInt16.ofNat payload.length = plen := by rw [hlen, UInt16.ofNat_toNat]
  rw [fwPacket, if_neg (by omega), putHeader, htake]
  simp only [packetBytes, PlHeader.wire, builtHeader, hplen]

theorem plBuildSensor_eq {cap : Nat} (deviceId : UInt32) (r : Reading) (hcap : 28 ≤ cap) :
    plBuildSensor cap deviceId r =
      some (packetBytes PktType.sensor.code deviceId (sensorPayload r)) :=
  fwPacket_eq rfl hcap

theorem plBuildHello_eq {cap : Nat} (deviceId firmwareVersion capabilities : UInt32)
    (hcap : 20 ≤ cap) :
    plBuildHello cap deviceId firmwareVersion capabilities =
      some (packetBytes PktType.hello.code deviceId (helloPayload firmwareVersion capabilities)) :=
  fwPacket_eq rfl hcap

theorem fwPacket_some {cap : Nat} {type : PktType} {deviceId : UInt32} {payload : List UInt8}
    {plen : UInt16} (hlen : payload.length = plen.toNat) {bs : List UInt8}
    (hbuild : fwPacket cap type deviceId payload plen = some bs) :
    bs = packetBytes type.code deviceId payload := by
  have hcap : PL_HDR_SIZE + plen.toNat ≤ cap := by
    by_contra hsmall
    rw [fwPacket, if_pos (by omega)] at hbuild
    cases hbuild
  rw [fwPacket_eq hlen hcap] at hbuild
  exact (Option.some.inj hbuild).symm

/-! ### Inbound headers -/

/-- `pl_rx_header_t`. -/
structure PlRxHeader where
  type : UInt8
  deviceId : UInt32
  payloadLen : UInt16
  checksum : UInt16
  deriving DecidableEq, Repr

/-- `pl_parse_header_fw`: `none` where the code returns 0. -/
def plParseHeaderFw (hdr : List UInt8) : Option PlRxHeader :=
  let magic := rdBe16 hdr 0
  if magic ≠ PL_MAGIC then none
  else if hdr.getD 2 0 ≠ PL_VERSION then none
  else some
    { type := hdr.getD 3 0
      deviceId := rdBe32 hdr 4
      payloadLen := rdBe16 hdr 8
      checksum := rdBe16 hdr 10 }

/-- The fields of a header that the firmware looks at. -/
def PlHeader.rx (h : PlHeader) : PlRxHeader := ⟨h.type, h.deviceId, h.payloadLen, h.checksum⟩

/-- The firmware's parser is the server's, followed by the checks of magic and version. -/
theorem plParseHeaderFw_eq (host : Endian) (hdr : List UInt8) :
    plParseHeaderFw hdr =
      if (plParseHeader host hdr).magic = PL_MAGIC ∧ (plParseHeader host hdr).version = PL_VERSION then
        some (plParseHeader host hdr).rx
      else none := by
  rw [plParseHeader_eq, plParseHeaderFw]
  by_cases hmagic : rdBe16 hdr 0 = PL_MAGIC
  · by_cases hversion : hdr.getD 2 0 = PL_VERSION
    · simp only [hmagic, hversion, ne_eq, not_true_eq_false, if_false, and_self, if_true, PlHeader.rx]
    · simp only [hmagic, hversion, ne_eq, not_true_eq_false, not_false_eq_true, if_false, if_true, and_false]
  · simp only [hmagic, ne_eq, not_false_eq_true, if_true, false_and, if_false]

end PulseLink
