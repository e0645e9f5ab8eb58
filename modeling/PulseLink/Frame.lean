import PulseLink.Image
import PulseLink.Telemetry

/-! Frames over the wire, after `imaging/frame.c`: `frame_chunk_build` makes one `PKT_FRAME` packet out of
a slice of an image, `frame_asm_feed` collects such payloads back into an image. Allocation outcomes are
an argument: each call may succeed or fail, and a `malloc`ed buffer starts with unspecified contents. -/

namespace PulseLink

open Bytes

def FRAME_CHUNK_MAX : Nat := 1024
def FRAME_MAX_PIXELS : UInt32 := (1 : UInt32) <<< 22

/-- `frame_chunk_count`. -/
def frameChunkCount (total : UInt32) : UInt16 := ((total + 1024 - 1) / 1024).toUInt16

/-- The frame header in front of the chunk bytes. -/
def frameHeader (width height : UInt16) (frameSeq : UInt32) (chunkIdx chunkCount : UInt16) :
    List UInt8 :=
  be16 width ++ (be16 height ++ (be32 frameSeq ++ (be16 chunkIdx ++ be16 chunkCount)))

/-- `frame_chunk_build`: the bytes of the packet, or `none` where the code returns 0. -/
def frameChunkBuild (cap : Nat) (deviceId : UInt32) (width height : UInt16) (frameSeq : UInt32)
    (chunkIdx chunkCount : UInt16) (chunk : List UInt8) (chunkLen : UInt16) : Option (List UInt8) :=
  if chunkLen.toNat > FRAME_CHUNK_MAX then none
  else
    let plen : UInt16 := 12 + chunkLen
    if cap < PL_HDR_SIZE + plen.toNat then none
    else
      let p := frameHeader width height frameSeq chunkIdx chunkCount ++ chunk.take chunkLen.toNat
      let ck := plChecksum (p.take plen.toNat)
      some (be16 PL_MAGIC ++ ([PL_VERSION, PktType.frame.code] ++ (be32 deviceId ++
        (be16 plen ++ be16 ck))) ++ p)

theorem toNat_frame_plen {chunkLen : UInt16} (hmax : chunkLen.toNat ≤ FRAME_CHUNK_MAX) :
    (12 + chunkLen).toNat = 12 + chunkLen.toNat := by
  have hmaxv : FRAME_CHUNK_MAX = 1024 := rfl
  rw [UInt16.toNat_add]
  exact Nat.mod_eq_of_lt (by show 12 + chunkLen.toNat < 2 ^ 16; omega)

/-- A larger buffer does not change the packet. -/
theorem frameChunkBuild_mono {cap cap' : Nat} (hcap : cap ≤ cap') {deviceId : UInt32}
    {width height : UInt16} {frameSeq : UInt32} {chunkIdx chunkCount : UInt16} {chunk bs : List UInt8}
    {chunkLen : UInt16}
    (hbuild : frameChunkBuild cap deviceId width height frameSeq chunkIdx chunkCount chunk chunkLen = some bs) :
    frameChunkBuild cap' deviceId width height frameSeq chunkIdx chunkCount chunk chunkLen = some bs := by
  simp only [frameChunkBuild] at hbuild ⊢
  split_ifs at hbuild with hmax hfit
  rw [if_neg hmax, if_neg (by omega)]
  exact hbuild

/-- `frame_asm_t`. -/
structure FrameAsm where
  active : Bool
  width : UInt16
  height : UInt16
  chunkCount : UInt16
  received : UInt16
  frameSeq : UInt32
  total : UInt32
  buf : List UInt8
  seen : List Bool
  deriving DecidableEq, Repr

/-- `frame_asm_init`, and the state `frame_asm_reset` returns to. -/
def frameAsmInit : FrameAsm where
  active := false
  width := 0
  height := 0
  chunkCount := 0
  received := 0
  frameSeq := 0
  total := 0
  buf := []
  seen := []

/-- The outcomes of the allocations a feed may make: `malloc` of the pixel buffer with the contents it
happens to have, `calloc` of the flags, `calloc` of the finished image. -/
structure FrameAlloc where
  buf : Option (Nat → UInt8)
  seen : Bool
  img : Bool

/-- The three results of `frame_asm_feed`: -1, 0, and 1 with the finished image. -/
inductive FeedResult where
  | malformed
  | more
  | complete (img : Image)
  deriving DecidableEq, Repr

/-- A chunk as `frame_asm_feed` reads it: the header fields, the image size and the position they give,
and the bytes behind the header. -/
structure Chunk where
  width : UInt16
  height : UInt16
  frameSeq : UInt32
  idx : UInt16
  count : UInt16
  total : UInt32
  off : UInt32
  bytes : List UInt8
  deriving DecidableEq, Repr

def readChunk (payload : List UInt8) : Chunk where
  width := rdBe16 payload 0
  height := rdBe16 payload 2
  frameSeq := rdBe32 payload 4
  idx := rdBe16 payload 8
  count := rdBe16 payload 10
  total := (rdBe16 payload 0).toUInt32 * (rdBe16 payload 2).toUInt32
  off := (rdBe16 payload 8).toUInt32 * 1024
  bytes := (payload.drop 12).take (UInt16.ofNat payload.length - 12).toNat

/-- The exact size of the chunk at `off`. -/
def chunkExpect (total off : UInt32) : UInt32 :=
  let expect := total - off
  if expect > 1024 then 1024 else expect

/-- The checks of `frame_asm_feed`, in order. -/
def parseChunk (payload : List UInt8) : Option Chunk :=
  let payloadLen := UInt16.ofNat payload.length
  if payloadLen < 12 then none
  else
    let c := readChunk payload
    if c.width = 0 ∨ c.height = 0 ∨ c.count = 0 then none
    else if c.total > FRAME_MAX_PIXELS then none
    else if frameChunkCount c.total ≠ c.count then none
    else if c.idx ≥ c.count then none
    else if c.off ≥ c.total then none
    else if (payloadLen - 12).toUInt32 ≠ chunkExpect c.total c.off then none
    else some c

/-- `fa` is not collecting the frame this chunk belongs to. -/
def FrameAsm.otherFrame (fa : FrameAsm) (c : Chunk) : Bool :=
  !fa.active || fa.frameSeq != c.frameSeq || fa.width != c.width || fa.height != c.height

/-- The assembler once the two buffers of a new frame are allocated. -/
def FrameAsm.begin (contents : Nat → UInt8) (c : Chunk) : FrameAsm where
  active := true
  width := c.width
  height := c.height
  chunkCount := c.count
  received := 0
  frameSeq := c.frameSeq
  total := c.total
  buf := (List.range c.total.toNat).map contents
  seen := List.replicate c.count.toNat false

/-- Flags the chunk, counting it when it is new, and copies its bytes into place. -/
def FrameAsm.store (fa : FrameAsm) (c : Chunk) : FrameAsm :=
  let fa :=
    if fa.seen.getD c.idx.toNat false then fa
    else { fa with seen := fa.seen.set c.idx.toNat true, received := fa.received + 1 }
  { fa with buf := storeAt fa.buf c.off.toNat c.bytes }

/-- The rest of a feed once the assembler collects the frame of the chunk. -/
def FrameAsm.collect (alloc : FrameAlloc) (fa : FrameAsm) (c : Chunk) : FeedResult × FrameAsm :=
  let fa := fa.store c
  if fa.received = fa.chunkCount then
    match imageAlloc alloc.img c.width.toNat c.height.toNat with
    | none => (.malformed, frameAsmInit)
    | some out => (.complete { out with pix := fa.buf.take c.total.toNat }, frameAsmInit)
  else (.more, fa)

/-- `frame_asm_feed`. -/
def frameAsmFeed (alloc : FrameAlloc) (fa : FrameAsm) (payload : List UInt8) :
    FeedResult × FrameAsm :=
  match parseChunk payload with
  | none => (.malformed, fa)
  | some c =>
      if fa.otherFrame c then
        -- start, or restart, a frame: the old buffers are freed whether or not the new ones come
        match alloc.buf, alloc.seen with
        | some contents, true => (FrameAsm.begin contents c).collect alloc c
        | _, _ => (.malformed, frameAsmInit)
      else fa.collect alloc c

end PulseLink
