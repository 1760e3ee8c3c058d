/-
Voice packets (`voice.rs`, `lib.rs`), and Mumble's numbers of variable length (`pds.rs`).

The first byte of a number says how many follow: none to three, four or eight for an unsigned
number, none for one of four small negative ones, and a whole number more for any other negative
one, which is read past and counts as 0.  A reader is the bytes it has not read yet.

The server does not decode audio.  It walks over the frames' headers to find where they end, since
what is left behind them may be the speaker's position: twelve bytes, or it is not one.  A
coordinate is its bits.

Slices and indices are checked, and the loop over chained frames has a number of turns, so that
reading out of bounds or without end would be a fault.
-/
import Baston.Lib.Checked
import Baston.Voice.Crypto

namespace Baston.Voice

/-- The unread bytes of a slice. -/
abbrev PdsReader := List UInt8

namespace PdsReader

/-- Bytes consumed so far of the slice the reader was made of. -/
def offset (buf : List UInt8) (r : PdsReader) : Nat := buf.length - r.length

def nextByte : PdsReader → Option (UInt8 × PdsReader)
  | [] => none
  | b :: rest => some (b, rest)

/-- The loop of the two full forms. -/
def nextBytes : Nat → UInt64 → PdsReader → Option (UInt64 × PdsReader)
  | 0, v, r => some (v, r)
  | n + 1, v, r => do
    let (b, r) ← nextByte r
    nextBytes n ((v <<< 8) ||| b.toUInt64) r

/-- Decode one number; `none` on truncation. -/
def readU64 : PdsReader → Option (UInt64 × PdsReader)
  | [] => none
  | b :: r =>
    let v0 := b.toUInt64
    if v0 &&& 0x80 = 0 then some (v0, r)
    else if v0 &&& 0xC0 = 0x80 then do
      let (b1, r) ← nextByte r
      return (((v0 &&& 0x3F) <<< 8) ||| b1.toUInt64, r)
    else if v0 &&& 0xE0 = 0xC0 then do
      let (b1, r) ← nextByte r
      let (b2, r) ← nextByte r
      return (((v0 &&& 0x1F) <<< 16) ||| (b1.toUInt64 <<< 8) ||| b2.toUInt64, r)
    else if v0 &&& 0xF0 = 0xE0 then do
      let (b1, r) ← nextByte r
      let (b2, r) ← nextByte r
      let (b3, r) ← nextByte r
      return (((v0 &&& 0x0F) <<< 24) ||| (b1.toUInt64 <<< 16) ||| (b2.toUInt64 <<< 8)
        ||| b3.toUInt64, r)
    else if v0 &&& 0xFC = 0xF0 then nextBytes 4 0 r
    else if v0 &&& 0xFC = 0xF4 then nextBytes 8 0 r
    else if v0 &&& 0xFC = 0xF8 then
      -- the magnitude is read and discarded, so that the stream stays aligned
      match readU64 r with
      | some (_, r) => some (0, r)
      | none => none
    else some (0 - ((v0 &&& 0x03) + 1), r)

end PdsReader

/-- A 32-bit number's bytes, the highest first. -/
def beBytes32 (v : UInt32) : List UInt8 :=
  [24, 16, 8, 0].map fun s : UInt32 => (v >>> s).toUInt8

/-- The encoding that `write_u64` appends. -/
def writeU64 (value : UInt64) : List UInt8 :=
  if value < 0x80 then [value.toUInt8]
  else if value < 0x4000 then [(0x80 : UInt8) ||| (value >>> 8).toUInt8, (value &&& 0xFF).toUInt8]
  else if value < 0x200000 then
    [(0xC0 : UInt8) ||| (value >>> 16).toUInt8, (value >>> 8).toUInt8, (value &&& 0xFF).toUInt8]
  else if value < 0x10000000 then
    [(0xE0 : UInt8) ||| (value >>> 24).toUInt8, (value >>> 16).toUInt8, (value >>> 8).toUInt8,
      (value &&& 0xFF).toUInt8]
  else if value < 0x100000000 then 0xF0 :: beBytes32 value.toUInt32
  else 0xF4 :: Ocb2.beBytes value

/-! ## Packets -/

open Checked

/-! ### The header byte -/

/-- The codec of a packet, or a ping. -/
inductive VoicePacketType
  | celtAlpha | ping | speex | celtBeta | opus
  deriving DecidableEq

/-- Decode the 3-bit type field. -/
def VoicePacketType.fromBits (bits : UInt8) : Option VoicePacketType :=
  let bits := bits &&& 0x07
  if bits = 0 then some .celtAlpha
  else if bits = 1 then some .ping
  else if bits = 2 then some .speex
  else if bits = 3 then some .celtBeta
  else if bits = 4 then some .opus
  else none

/-- Who a packet is for: the speaker's channel, a registered target, or the speaker alone. -/
inductive VoiceTargetKind
  | normal
  | whisper (id : UInt8)
  | loopback
  deriving DecidableEq

/-- Decode the 5-bit target field. -/
def VoiceTargetKind.fromBits (bits : UInt8) : VoiceTargetKind :=
  let bits := bits &&& 0x1F
  if bits = 0 then .normal
  else if bits = 31 then .loopback
  else .whisper bits

/-! ### Packets -/

/-- Three coordinates, each its bits. -/
abbrev Position := UInt32 × UInt32 × UInt32

/-- A parsed but opaque inbound voice packet. -/
structure VoicePacket where
  codec : VoicePacketType
  target : VoiceTargetKind
  /-- The full decrypted payload, with the header byte. -/
  payload : List UInt8
  /-- Where the positional block starts. -/
  audioEnd : Nat
  position : Option Position

namespace VoicePacket

def hasPosition (v : VoicePacket) : Bool := v.position.isSome

/-- The bytes to forward without positional data. -/
def withoutPosition (v : VoicePacket) : Checked (List UInt8) := slice v.payload 0 v.audioEnd

/-- The coordinates of a positional block, `to_be_bytes`. -/
def positionBytes (pos : Position) : List UInt8 :=
  beBytes32 pos.1 ++ (beBytes32 pos.2.1 ++ beBytes32 pos.2.2)

/-- The packet with another positional block. -/
def withRewrittenPosition (v : VoicePacket) (pos : Position) : Checked (List UInt8) := do
  return (← slice v.payload 0 v.audioEnd) ++ positionBytes pos

end VoicePacket

/-- What a recipient is sent: the speaker's session behind the header byte, then the payload. -/
def encodeOutbound (session : UInt64) (packet : VoicePacket) (withPosition : Bool) :
    Checked (List UInt8) := do
  let body ←
    if withPosition then slice packet.payload 1 packet.payload.length
    else slice packet.payload 1 (min packet.audioEnd packet.payload.length)
  return (← index packet.payload 0) :: (writeU64 session ++ body)

/-! ### Parsing -/

/-- Advance the reader by `n` bytes of frame data. -/
def skip : Nat → PdsReader → Option PdsReader
  | 0, r => some r
  | n + 1, r => do
    let (_, r) ← r.nextByte
    skip n r

/-- The loop over chained frames; the header's top bit says that another follows. -/
def celtFrames : Nat → PdsReader → Checked (Option PdsReader)
  | 0, _ => .error .stuck
  | turns + 1, r =>
    match r.readU64 with
    | none => return none
    | some (h, r) =>
      let h := h.toUInt8
      match skip (h &&& 0x7F).toNat r with
      | none => return none
      | some r => if h &&& 0x80 = 0 then return some r else celtFrames turns r

/-- Walk over the audio frames. -/
def audioFrames (codec : VoicePacketType) (r : PdsReader) : Checked (Option PdsReader) :=
  match codec with
  | .opus =>
    match r.readU64 with
    | none => return none
    | some (hdr, r) => return skip (hdr &&& 0x1FFF).toNat r
  | .ping => return some r
  | _ => celtFrames (r.length + 1) r

/-- `from_be_bytes` of the four bytes at `i`. -/
def coordinate (tail : List UInt8) (i : Nat) : Checked UInt32 := do
  let b0 ← index tail i
  let b1 ← index tail (i + 1)
  let b2 ← index tail (i + 2)
  let b3 ← index tail (i + 3)
  return (b0.toUInt32 <<< 24) ||| (b1.toUInt32 <<< 16) ||| (b2.toUInt32 <<< 8) ||| b3.toUInt32

/-- Decode a positional block; anything but twelve bytes is none. -/
def decodePosition (tail : List UInt8) : Checked (Option Position) :=
  if tail.length ≠ 12 then return none
  else do return some (← coordinate tail 0, ← coordinate tail 4, ← coordinate tail 8)

/-- Parse a decrypted payload; `none` where it is malformed or truncated. -/
def parse (payload : List UInt8) : Checked (Option VoicePacket) :=
  match payload.head? with
  | none => return none
  | some header =>
    match VoicePacketType.fromBits (header >>> 5) with
    | none => return none
    | some codec => do
      let target := VoiceTargetKind.fromBits (header &&& 0x1F)
      let body ← slice payload 1 payload.length
      -- the session a client claims is read past: the socket says who it is
      match PdsReader.readU64 body with
      | none => return none
      | some (_, r) =>
        match ← audioFrames codec r with
        | none => return none
        | some r =>
          let audioEnd := 1 + r.offset body
          if codec = .ping then
            return some
              { codec, target, payload, audioEnd := min audioEnd payload.length, position := none }
          else
            let tail ← slice payload (min audioEnd payload.length) payload.length
            let position ← decodePosition tail
            return some { codec, target, payload, audioEnd, position }

end Baston.Voice
