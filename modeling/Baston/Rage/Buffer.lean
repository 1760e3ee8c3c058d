/-
`MessageBuffer`, the bit buffer every clone and ack stream is read from and
written to (`rage/buffer.rs`).

Bits are numbered MSB-first within each byte.  The quirks of the source are kept:
a failed `readBitsSingle` still advances the cursor, a failed write does not, a
`readBit` past the data answers zero, and with the length hack on every 13-bit
field is 16 bits wide.  A reader returns its value together with the advanced
buffer; the `BitM` monad threads it.
-/
import Baston.Rage.Scalar

namespace Baston.Rage

/-- A buffer of bytes with a bit cursor. -/
structure MessageBuffer where
  data : List UInt8
  curBit : Nat
  maxBit : Nat
  lengthHack : Bool
  deriving DecidableEq

namespace MessageBuffer

/-- A writer over `size` zeroed bytes. -/
def new (size : Nat) : MessageBuffer :=
  ⟨List.replicate size 0, 0, size * 8, false⟩

/-- A reader over existing bytes. -/
def fromBytes (data : List UInt8) : MessageBuffer :=
  ⟨data, 0, data.length * 8, false⟩

/-- A reader over existing bytes, bounded to `bitLen` bits. -/
def fromBits (data : List UInt8) (bitLen : Nat) : MessageBuffer :=
  ⟨data, 0, min bitLen (data.length * 8), false⟩

def withLengthHack (buf : MessageBuffer) (enabled : Bool) : MessageBuffer :=
  { buf with lengthHack := enabled }

/-- The width a field of `length` bits really has. -/
def effectiveLen (buf : MessageBuffer) (length : Nat) : Nat :=
  if length = 13 ∧ buf.lengthHack then 16 else length

/-- Bit `bit` of `data`, as the byte the source shifts it out to. -/
def bitAt (data : List UInt8) (bit : Nat) : UInt8 :=
  (data.getD (bit / 8) 0 >>> UInt8.ofNat (7 - bit % 8)) &&& 1

/-- Overwrite bit `bit` of `data`. -/
def putBit (data : List UInt8) (bit : Nat) (b : UInt8) : List UInt8 :=
  let shift := UInt8.ofNat (7 - bit % 8)
  data.set (bit / 8) ((data.getD (bit / 8) 0 &&& ~~~(1 <<< shift)) ||| (b <<< shift))

/-- The bits `from`, `from + 1`, …, folded into an integer as the read loop does. -/
def gather (data : List UInt8) (start length : Nat) : UInt32 :=
  (List.range length).foldl
    (fun value i => (value <<< 1) ||| (bitAt data (start + i)).toUInt32) 0

/-- The write loop: bit `length - 1 - i` of `value` goes to position `start + i`. -/
def scatter (data : List UInt8) (start length : Nat) (value : UInt32) : List UInt8 :=
  (List.range length).foldl
    (fun data i =>
      putBit data (start + i) ((value >>> UInt32.ofNat (length - 1 - i)) &&& 1).toUInt8)
    data

/-- Up to 32 bits as an unsigned integer.  On overflow the cursor still advances. -/
def readBitsSingle (length : Nat) (buf : MessageBuffer) : Option UInt32 × MessageBuffer :=
  let length := buf.effectiveLen length
  if buf.curBit + length > buf.maxBit then
    (none, { buf with curBit := buf.curBit + length })
  else
    (some (gather buf.data buf.curBit length), { buf with curBit := buf.curBit + length })

/-- Write up to 32 bits.  On overflow nothing happens at all. -/
def writeBitsSingle (value : UInt32) (length : Nat) (buf : MessageBuffer) :
    Bool × MessageBuffer :=
  let length := buf.effectiveLen length
  if buf.curBit + length > buf.maxBit then (false, buf)
  else
    (true, { buf with
      data := scatter buf.data buf.curBit length value
      curBit := buf.curBit + length })

/-- One bit; past the data it reads as zero, and the cursor advances all the same. -/
def readBit (buf : MessageBuffer) : Bool × MessageBuffer :=
  let bit := if buf.curBit / 8 ≥ buf.data.length then 0 else bitAt buf.data buf.curBit
  (bit != 0, { buf with curBit := buf.curBit + 1 })

def writeBit (bit : Bool) (buf : MessageBuffer) : Bool × MessageBuffer :=
  if buf.curBit / 8 ≥ buf.data.length then (false, buf)
  else
    (true, { buf with
      data := putBit buf.data buf.curBit bit.toUInt8
      curBit := buf.curBit + 1 })

/-- `copy_bits`: the byte-aligned fast path, else bit by bit. -/
def copyBits (dest src : List UInt8) (length destBit srcBit : Nat) : List UInt8 :=
  if destBit % 8 = 0 ∧ srcBit % 8 = 0 ∧ length % 8 = 0 then
    dest.take (destBit / 8) ++ (src.drop (srcBit / 8)).take (length / 8)
      ++ dest.drop (destBit / 8 + length / 8)
  else
    (List.range length).foldl
      (fun dest i => putBit dest (destBit + i) (bitAt src (srcBit + i))) dest

/-- Copy `length` bits out of the stream into a fresh buffer of `size` bytes. -/
def readBits (size length : Nat) (buf : MessageBuffer) : Option (List UInt8) × MessageBuffer :=
  if length = 0 then (some (List.replicate size 0), buf)
  else if buf.curBit + length > buf.maxBit then (none, buf)
  else
    (some (copyBits (List.replicate size 0) buf.data length 0 buf.curBit),
      { buf with curBit := buf.curBit + length })

/-- Copy `length` bits of `src` into the stream. -/
def writeBits (src : List UInt8) (length : Nat) (buf : MessageBuffer) : Bool × MessageBuffer :=
  if buf.curBit + length > buf.maxBit then (false, buf)
  else
    (true, { buf with
      data := copyBits buf.data src length buf.curBit 0
      curBit := buf.curBit + length })

def setCurrentBit (buf : MessageBuffer) (bit : Nat) : MessageBuffer := { buf with curBit := bit }

def isAtEnd (buf : MessageBuffer) : Bool := buf.curBit ≥ buf.maxBit

/-- Bytes touched so far: the cursor rounded up to a byte. -/
def dataLength (buf : MessageBuffer) : Nat :=
  buf.curBit / 8 + if buf.curBit % 8 = 0 then 0 else 1

end MessageBuffer

/-! ### Reading in sequence

`BitM` is a reader that may fail.  As in the source a failure keeps the cursor where
the failed read left it, so the buffer survives a `none`.
-/

/-- A fallible reader over a `MessageBuffer`. -/
abbrev BitM := OptionT (StateM MessageBuffer)

namespace BitM

open MessageBuffer

/-- `buf.read_bits_single(length)?`. -/
def bits (length : Nat) : BitM UInt32 := OptionT.mk fun buf => readBitsSingle length buf

/-- `buf.read_bit() != 0`: never fails. -/
def bit : BitM Bool := OptionT.mk fun buf => let (b, buf) := readBit buf; (some b, buf)

/-- `buf.read_bits(&mut vec![0; size], length)`. -/
def bytes (size length : Nat) : BitM (List UInt8) :=
  OptionT.mk fun buf => readBits size length buf

/-- Run a reader once for each element, left to right. -/
def forEach {α β : Type} (f : α → BitM β) : List α → BitM (List β)
  | [] => pure []
  | a :: rest => do
    let b ← f a
    let bs ← forEach f rest
    pure (b :: bs)

/-- Run a reader `n` times and drop what it read. -/
def skip {α : Type} (n : Nat) (m : BitM α) : BitM Unit := do
  let _ ← forEach (fun _ => m) (List.range n)
  pure ()

/-- Run a reader when `c` holds, for its effect on the cursor. -/
def when {α : Type} (c : Bool) (m : BitM α) : BitM Unit :=
  if c then do let _ ← m; pure () else pure ()

/-- `buf.read_signed(length)?`: a sign bit, then the magnitude XOR'd with it. -/
def signed (length : Nat) : BitM Int32 :=
  if length = 0 ∨ length > 32 then failure
  else do
    let sign ← bits 1
    let data ← bits (length - 1)
    pure (sign.toInt32 + (data.toInt32 ^^^ -sign.toInt32))

/-- `buf.read_long(length)?`: the low 32 bits first. -/
def long (length : Nat) : BitM UInt64 :=
  if length = 0 ∨ length > 64 then failure
  else if length ≤ 32 then do
    let value ← bits length
    pure value.toUInt64
  else do
    let low ← bits 32
    let high ← bits (length - 32)
    pure (low.toUInt64 ||| (high.toUInt64 <<< 32))

variable {F : Type} [Scalar F]

/-- `buf.read_float(length, divisor)?`. -/
def float (length : Nat) (divisor : F) : BitM F :=
  if length = 0 ∨ length > 32 then failure
  else do
    let integer ← bits length
    let max : F := Scalar.ofInt (2 ^ length - 1)
    pure (Scalar.ofInt integer.toInt32.toInt / max * divisor)

/-- `buf.read_signed_float(length, divisor)?`. -/
def signedFloat (length : Nat) (divisor : F) : BitM F := do
  let integer ← signed length
  let max : F := Scalar.ofInt (2 ^ (length - 1) - 1)
  pure (Scalar.ofInt integer.toInt / max * divisor)

end BitM

/-! ### Writing in sequence

A writer returns whether it succeeded; `and` is the source's `&&`, which stops at
the first failure, and `then` is a plain sequence of statements that ignores it.
-/

/-- A writer over a `MessageBuffer`. -/
abbrev BitW := MessageBuffer → Bool × MessageBuffer

namespace BitW

open MessageBuffer

/-- `a && b`. -/
def and (a b : BitW) : BitW := fun buf =>
  match a buf with
  | (true, buf) => b buf
  | (false, buf) => (false, buf)

/-- `a; b`. -/
def seq (a b : BitW) : BitW := fun buf => b (a buf).2

/-- Each writer in turn, stopping at the first failure. -/
def all : List BitW → BitW
  | [] => fun buf => (true, buf)
  | w :: rest => and w (all rest)

/-- Each writer in turn, failed or not. -/
def each : List BitW → BitW
  | [] => fun buf => (true, buf)
  | w :: rest => seq w (each rest)

variable {F : Type} [Scalar F]

/-- `write_float`. -/
def float (length : Nat) (divisor value : F) : BitW :=
  let max : F := Scalar.ofInt (2 ^ length - 1)
  let integer := Scalar.toI32 (value / divisor * max)
  writeBitsSingle integer.toUInt32 length

/-- `write_signed`. -/
def signed (value : Int32) (length : Nat) : BitW :=
  let signEx : Int32 := if value < 0 then -1 else 0
  and (writeBitsSingle (if value < 0 then 1 else 0) 1)
    (writeBitsSingle (value ^^^ signEx).toUInt32 (length - 1))

/-- `write_long`. -/
def long (value : UInt64) (length : Nat) : BitW :=
  if length ≤ 32 then writeBitsSingle value.toUInt32 length
  else and (writeBitsSingle value.toUInt32 32)
    (writeBitsSingle (value >>> 32).toUInt32 (length - 32))

/-- `write_signed_float`. -/
def signedFloat (length : Nat) (divisor value : F) : BitW :=
  let max : F := Scalar.ofInt (2 ^ (length - 1) - 1)
  let integer := Scalar.toI32 (value / divisor * max)
  signed integer length

end BitW

end Baston.Rage
