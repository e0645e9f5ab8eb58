import PulseLink.BaseBytes

/-! The wire protocol of `common/protocol.h` and the checksum of `common/checksum.c`: the constants,
packet types, error codes and the 12-byte header both ends agree on. -/

namespace PulseLink

open Bytes

def PL_MAGIC : UInt16 := 0x504C
def PL_VERSION : UInt8 := 0x01
def PL_HDR_SIZE : Nat := 12
def PL_MAX_PAYLOAD : UInt16 := 1100

/-- `pkt_type_t`. -/
inductive PktType where
  | hello
  | helloAck
  | sensor
  | ack
  | heartbeat
  | frame
  | error
  deriving DecidableEq, Repr

/-- The type byte of a packet. -/
def PktType.code : PktType → UInt8
  | .hello => 0x01
  | .helloAck => 0x02
  | .sensor => 0x03
  | .ack => 0x04
  | .heartbeat => 0x05
  | .frame => 0x06
  | .error => 0x07

/-- `pl_error_t`. -/
inductive PlError where
  | badMagic
  | badVersion
  | badChecksum
  | badType
  | tooBig
  | noHello
  deriving DecidableEq, Repr

def PlError.code : PlError → UInt16
  | .badMagic => 0x0001
  | .badVersion => 0x0002
  | .badChecksum => 0x0003
  | .badType => 0x0004
  | .tooBig => 0x0005
  | .noHello => 0x0006

/-- `pl_header_t`, with the fields in host order. -/
structure PlHeader where
  magic : UInt16
  version : UInt8
  type : UInt8
  deviceId : UInt32
  payloadLen : UInt16
  checksum : UInt16
  deriving DecidableEq, Repr

/-- The 12 bytes of a header on the wire, every field big-endian. -/
def PlHeader.wire (h : PlHeader) : List UInt8 :=
  be16 h.magic ++ ([h.version, h.type] ++ (be32 h.deviceId ++ (be16 h.payloadLen ++ be16 h.checksum)))

@[simp] theorem PlHeader.length_wire (h : PlHeader) : h.wire.length = PL_HDR_SIZE := rfl

/-! ### The checksum -/

/-- The two loops of `pl_checksum` over the payload: complete big-endian words, then an odd last byte
padded on the right with zero. -/
def sumWords : UInt32 → List UInt8 → UInt32
  | sum, hi :: lo :: rest => sumWords (sum + (word16 hi lo).toUInt32) rest
  | sum, [hi] => sum + (hi.toUInt16 <<< 8).toUInt32
  | sum, [] => sum

/-- `while (sum >> 16)`, for at most `fuel` turns. -/
def foldCarry : Nat → UInt32 → UInt32
  | 0, sum => sum
  | fuel + 1, sum =>
      if sum >>> 16 = 0 then sum else foldCarry fuel ((sum &&& (0xFFFF : UInt32)) + (sum >>> 16))

/-- `pl_checksum`. Two turns of the carry loop are enough for every 32-bit sum
(`foldCarry_two_done`). -/
def plChecksum (data : List UInt8) : UInt16 :=
  ~~~ (foldCarry 2 (sumWords 0 data)).toUInt16

theorem shift_eq_zero_iff (sum : UInt32) : sum >>> 16 = 0 ↔ sum.toNat < 2 ^ 16 := by
  have hshift : (sum >>> 16).toNat = sum.toNat / 2 ^ 16 := by
    rw [UInt32.toNat_shiftRight, Nat.shiftRight_eq_div_pow]
    rfl
  rw [← UInt32.toNat_inj, hshift]
  exact Nat.div_eq_zero_iff_lt (by decide)

/-- One turn of the carry loop. -/
theorem toNat_carry (sum : UInt32) :
    ((sum &&& (0xFFFF : UInt32)) + (sum >>> 16)).toNat = sum.toNat % 2 ^ 16 + sum.toNat / 2 ^ 16 := by
  have hlt := sum.toNat_lt
  have hand : (sum &&& (0xFFFF : UInt32)).toNat = sum.toNat % 2 ^ 16 := by
    rw [UInt32.toNat_and]
    exact Nat.and_two_pow_sub_one_eq_mod sum.toNat 16
  have hshift : (sum >>> 16).toNat = sum.toNat / 2 ^ 16 := by
    rw [UInt32.toNat_shiftRight, Nat.shiftRight_eq_div_pow]
    rfl
  rw [UInt32.toNat_add, hand, hshift]
  exact Nat.mod_eq_of_lt (by omega)

/-- The carry loop has ended after two turns, whatever it started from. -/
theorem foldCarry_two_done (sum : UInt32) : foldCarry 2 sum >>> 16 = 0 := by
  have hlt := sum.toNat_lt
  simp only [foldCarry]
  split_ifs with h1 h2
  · exact h1
  · exact h2
  · -- one turn leaves at most 2 * 0xFFFF, so the second adds a carry of at most one
    have hturn := toNat_carry sum
    rw [shift_eq_zero_iff, toNat_carry]
    omega

end PulseLink
