/-
The voice packets' crypto: OCB2 over AES-128, and the nonces of one peer.

The block cipher itself is not this crate's, so it is a parameter: a permutation of
the sixteen-byte blocks.  An encrypted packet is the nonce's low byte, three bytes of
the tag, and the ciphertext.  The receiver rebuilds the other fifteen bytes of the
nonce from the counter it holds.

`encrypt` and `decrypt` take what OCB2 does to a packet's body as an argument, so
that the same code also runs under an ideal cipher: a packet opens under a nonce exactly if it
was sealed under that nonce and nothing in it was changed.  Between a sender and a receiver,
whoever carries the packets may lose, repeat, reorder, cut or forge them, so a delivery hands
the receiver any bytes at all.
-/
import Mathlib.Logic.Equiv.Defs
import Baston.Lib.Counter
import Baston.Lib.Map
import Baston.Lib.Trace

namespace Baston.Voice

/-! ### Blocks -/

/-- The length of an AES block. -/
def BLOCK : Nat := 16

/-- An AES block, `[u8; BLOCK]`. -/
structure Block where
  bytes : List UInt8
  size : bytes.length = BLOCK
  deriving DecidableEq

namespace Block

theorem ext {a b : Block} (h : a.bytes = b.bytes) : a = b := by
  cases a
  cases b
  cases h
  rfl

/-- `[0u8; BLOCK]`. -/
def zero : Block := ⟨List.replicate BLOCK 0, List.length_replicate⟩

/-- The number a block's bytes spell as a counter. -/
def value (b : Block) : Nat := Counter.value b.bytes

/-- Byte `i`. -/
def get (b : Block) (i : Nat) : UInt8 := b.bytes.getD i 0

/-- Write over the first bytes of a block. -/
def overwrite (b : Block) (front : List UInt8) (h : front.length ≤ BLOCK) : Block :=
  ⟨front ++ b.bytes.drop front.length, by
    rw [List.length_append, List.length_drop, b.size]
    omega⟩

/-- Give byte zero the value `v`. -/
def setLow (b : Block) (v : UInt8) : Block :=
  ⟨v :: b.bytes.tail, by rw [List.length_cons, List.length_tail, b.size]; rfl⟩

/-- Step the counter of bytes one to fifteen. -/
def stepHigh (b : Block) (f : List UInt8 → List UInt8) (hf : ∀ l, (f l).length = l.length) :
    Block :=
  ⟨b.bytes.take 1 ++ f b.bytes.tail, by
    rw [List.length_append, hf, List.length_take, List.length_tail, b.size]; rfl⟩

end Block

/-- The exclusive or of two blocks; `xor_into` with the result as its value. -/
def xor (a b : Block) : Block :=
  ⟨List.zipWith (· ^^^ ·) a.bytes b.bytes, by
    rw [List.length_zipWith, a.size, b.size, Nat.min_self]⟩

/-- Doubling in GF(2^128), the block read with its first byte highest. -/
def times2 (block : Block) : Block :=
  let carry := block.get 0 >>> 7
  let out := (List.range BLOCK).map fun i =>
    let next := if i + 1 < BLOCK then block.get (i + 1) >>> 7 else 0
    (block.get i <<< 1) ||| next
  ⟨if carry = 1 then out.set (BLOCK - 1) (out.getD (BLOCK - 1) 0 ^^^ 0x87) else out, by
    split
    · rw [List.length_set, List.length_map, List.length_range]
    · rw [List.length_map, List.length_range]⟩

/-- `times3`: the block and its double. -/
def times3 (block : Block) : Block := xor block (times2 block)

/-! ### OCB2 -/

/-- The keyed cipher: AES-128's permutation of the blocks. -/
structure Ocb2 where
  aes : Equiv.Perm Block

namespace Ocb2

def aesEncrypt (ocb : Ocb2) (input : Block) : Block := ocb.aes input

def aesDecrypt (ocb : Ocb2) (input : Block) : Block := ocb.aes.symm input

/-- The loop's variables: what is left of the input is its last, possibly partial, block. -/
structure Loop where
  delta : Block
  checksum : Block
  rest : List UInt8
  short : rest.length ≤ BLOCK
  out : List UInt8

/-- The first block of an input longer than one. -/
def chunk (input : List UInt8) (h : BLOCK < input.length) : Block :=
  ⟨input.take BLOCK, by rw [List.length_take]; omega⟩

/-- The full blocks of `ocb_encrypt`, all but the last one. -/
def encryptBlocks (ocb : Ocb2) (delta checksum : Block) (plain encrypted : List UInt8) : Loop :=
  if h : BLOCK < plain.length then
    let delta := times2 delta
    let chunk := chunk plain h
    let tmp := ocb.aesEncrypt (xor delta chunk)
    encryptBlocks ocb delta (xor checksum chunk) (plain.drop BLOCK)
      (encrypted ++ (xor delta tmp).bytes)
  else
    ⟨delta, checksum, plain, Nat.le_of_not_lt h, encrypted⟩
  termination_by plain.length
  decreasing_by rw [List.length_drop]; unfold BLOCK at *; omega

/-- The full blocks of `ocb_decrypt`. -/
def decryptBlocks (ocb : Ocb2) (delta checksum : Block) (encrypted plain : List UInt8) : Loop :=
  if h : BLOCK < encrypted.length then
    let delta := times2 delta
    let chunk := chunk encrypted h
    let tmp := ocb.aesDecrypt (xor delta chunk)
    let p := xor delta tmp
    decryptBlocks ocb delta (xor checksum p) (encrypted.drop BLOCK) (plain ++ p.bytes)
  else
    ⟨delta, checksum, encrypted, Nat.le_of_not_lt h, plain⟩
  termination_by encrypted.length
  decreasing_by rw [List.length_drop]; unfold BLOCK at *; omega

/-- A 64-bit number's bytes, the highest first. -/
def beBytes (v : UInt64) : List UInt8 :=
  [56, 48, 40, 32, 24, 16, 8, 0].map fun s : UInt64 => (v >>> s).toUInt8

/-- The last block's length in bits, in the low half of a block. -/
def lengthBlock (len : Nat) : Block :=
  ⟨List.replicate 8 0 ++ beBytes (UInt64.ofNat len * 8), rfl⟩

/-- `ocb_encrypt`: the ciphertext and the tag. -/
def ocbEncrypt (ocb : Ocb2) (plain : List UInt8) (nonce : Block) : List UInt8 × Block :=
  let s := ocb.encryptBlocks (ocb.aesEncrypt nonce) Block.zero plain []
  let delta := times2 s.delta
  let pad := ocb.aesEncrypt (xor (lengthBlock s.rest.length) delta)
  -- The plaintext's last bytes, and the pad behind them.
  let last := pad.overwrite s.rest s.short
  let checksum := xor s.checksum last
  let cipherLast := xor pad last
  (s.out ++ cipherLast.bytes.take s.rest.length,
    ocb.aesEncrypt (xor (times3 delta) checksum))

/-- `ocb_decrypt`: the plaintext and the tag it should have come with. -/
def ocbDecrypt (ocb : Ocb2) (encrypted : List UInt8) (nonce : Block) : List UInt8 × Block :=
  let s := ocb.decryptBlocks (ocb.aesEncrypt nonce) Block.zero encrypted []
  let delta := times2 s.delta
  let pad := ocb.aesEncrypt (xor (lengthBlock s.rest.length) delta)
  -- The pad, its first bytes combined with the ciphertext's last ones.
  let last := pad.overwrite (List.zipWith (· ^^^ ·) pad.bytes s.rest) (by
    rw [List.length_zipWith]
    exact Nat.le_trans (Nat.min_le_right _ _) s.short)
  let checksum := xor s.checksum last
  (s.out ++ last.bytes.take s.rest.length, ocb.aesEncrypt (xor (times3 delta) checksum))

/-- What `encrypt` puts behind the nonce byte: three bytes of the tag and the ciphertext. -/
def sealed (ocb : Ocb2) (nonce : Block) (source : List UInt8) : List UInt8 :=
  let (cipher, tag) := ocb.ocbEncrypt source nonce
  tag.bytes.take 3 ++ cipher

/-- What `decrypt` does once it has a nonce: the plaintext, if the packet's tag is its tag. -/
def opened (ocb : Ocb2) (nonce : Block) (source : List UInt8) : Option (List UInt8) :=
  let (plain, tag) := ocb.ocbDecrypt (source.drop 4) nonce
  if tag.bytes.take 3 ≠ (source.drop 1).take 3 then none else some plain

end Ocb2

/-! ### One peer's nonces -/

/-- One peer's cipher, its rolling nonces, its replay history and its packet counts. -/
structure CryptState where
  ocb : Ocb2
  encryptIv : Block
  decryptIv : Block
  /-- The second byte of the last nonce accepted with this first byte. -/
  decryptHistory : UInt8 → UInt8
  good : UInt32
  late : UInt32
  lost : UInt32

/-- What `decrypt` makes of a packet's nonce byte. -/
structure Rebuilt where
  iv : Block
  restore : Bool
  late : UInt32
  lost : Int

namespace CryptState

/-- `new`, from the keyed cipher and both nonces. -/
def new (ocb : Ocb2) (encryptIv decryptIv : Block) : CryptState :=
  { ocb, encryptIv, decryptIv, decryptHistory := fun _ => 0, good := 0, late := 0, lost := 0 }

/-- The nonce counter, stepped. -/
def next (iv : Block) : Block :=
  ⟨Counter.increment iv.bytes, by rw [Counter.length_increment, iv.size]⟩

/-- `encrypt`, under a cipher that seals a packet's body. -/
def encryptWith (sealBody : Block → List UInt8 → List UInt8) (s : CryptState)
    (source : List UInt8) : CryptState × List UInt8 :=
  let iv := next s.encryptIv
  ({ s with encryptIv := iv }, iv.get 0 :: sealBody iv source)

/-- Encrypt one voice payload. -/
def encrypt (s : CryptState) (source : List UInt8) : CryptState × List UInt8 :=
  s.encryptWith s.ocb.sealed source

/-- The nonce of a packet that is the next one in order. -/
def inOrder (iv : Block) (ivbyte : UInt8) : Option Rebuilt :=
  if ivbyte > iv.get 0 then
    some { iv := iv.setLow ivbyte, restore := false, late := 0, lost := 0 }
  else if ivbyte < iv.get 0 then
    some
      { iv := (iv.setLow ivbyte).stepHigh Counter.increment Counter.length_increment
        restore := false
        late := 0
        lost := 0 }
  else
    none

/-- How far a nonce byte lies from the counter's own, the shorter way round. -/
def distance (iv : Block) (ivbyte : UInt8) : Int :=
  let diff : Int := (ivbyte.toNat : Int) - ((iv.get 0).toNat : Int)
  if diff > 128 then diff - 256 else if diff < -128 then diff + 256 else diff

/-- The nonce of a packet out of order, or of one repeated. -/
def outOfOrder (iv : Block) (ivbyte : UInt8) : Option Rebuilt :=
  let low := iv.get 0
  let diff := distance iv ivbyte
  if ivbyte < low ∧ diff > -30 ∧ diff < 0 then
    some { iv := iv.setLow ivbyte, restore := true, late := 1, lost := -1 }
  else if ivbyte > low ∧ diff > -30 ∧ diff < 0 then
    some
      { iv := (iv.setLow ivbyte).stepHigh Counter.decrement Counter.length_decrement
        restore := true
        late := 1
        lost := -1 }
  else if ivbyte > low ∧ diff > 0 then
    some
      { iv := iv.setLow ivbyte
        restore := false
        late := 0
        lost := ((ivbyte - low - 1).toNat : Int) }
  else if ivbyte < low ∧ diff > 0 then
    some
      { iv := (iv.setLow ivbyte).stepHigh Counter.increment Counter.length_increment
        restore := false
        late := 0
        lost := 256 - (low.toNat : Int) + (ivbyte.toNat : Int) - 1 }
  else
    none

/-- Whether the history holds the nonce the counter stands at. -/
def seen (s : CryptState) : Bool := s.decryptHistory (s.decryptIv.get 0) = s.decryptIv.get 1

/-- The second half of `decrypt`: the tag, then the history and the counts.  The counter
already stands at the packet's nonce; `saveiv` is where it stood before. -/
def verify (openBody : Block → List UInt8 → Option (List UInt8)) (saveiv : Block) (r : Rebuilt)
    (s : CryptState) (source : List UInt8) : CryptState × Option (List UInt8) :=
  match openBody s.decryptIv source with
  | none => ({ s with decryptIv := saveiv }, none)
  | some plain =>
    ({ s with
       decryptHistory :=
         Function.update s.decryptHistory (s.decryptIv.get 0) (s.decryptIv.get 1)
       decryptIv := if r.restore then saveiv else s.decryptIv
       good := s.good + 1
       late := s.late + r.late
       lost := if r.lost > 0 then s.lost + UInt32.ofNat r.lost.toNat else s.lost }, some plain)

/-- `decrypt`, under a cipher that opens a packet's body. -/
def decryptWith (openBody : Block → List UInt8 → Option (List UInt8)) (s : CryptState)
    (source : List UInt8) : CryptState × Option (List UInt8) :=
  if source.length < 4 then
    (s, none)
  else
    let ivbyte := source.getD 0 0
    let saveiv := s.decryptIv
    if s.decryptIv.get 0 + 1 = ivbyte then
      match inOrder s.decryptIv ivbyte with
      | none => (s, none)
      | some r => verify openBody saveiv r { s with decryptIv := r.iv } source
    else
      match outOfOrder s.decryptIv ivbyte with
      | none => (s, none)
      | some r =>
        let s := { s with decryptIv := r.iv }
        if s.seen then
          ({ s with decryptIv := saveiv }, none)
        else
          verify openBody saveiv r s source

/-- Decrypt one packet. -/
def decrypt (s : CryptState) (source : List UInt8) : CryptState × Option (List UInt8) :=
  s.decryptWith s.ocb.opened source

end CryptState

/-! ## A sender and a receiver -/

/-- What puts a packet's body together: the tag's three bytes, and the ciphertext. -/
structure Cipher where
  sealBody : Block → List UInt8 → List UInt8
  tagged : ∀ nonce plain, 3 ≤ (sealBody nonce plain).length

/-- OCB2's packets. -/
def Ocb2.cipher (ocb : Ocb2) : Cipher where
  sealBody := ocb.sealed
  tagged := by
    intro nonce plain
    simp only [Ocb2.sealed, List.length_append, List.length_take, Block.size]
    unfold BLOCK
    omega

/-- A payload that was encrypted, and the nonce it was encrypted with. -/
structure Sent where
  nonce : Block
  plain : List UInt8
  deriving DecidableEq

/-- The packet it went out as. -/
def Sent.packet (cipher : Cipher) (e : Sent) : List UInt8 :=
  e.nonce.get 0 :: cipher.sealBody e.nonce e.plain

/-- The ideal tag check: the payload that was sealed under this nonce into this very packet. -/
def openSent (cipher : Cipher) (sent : List Sent) (nonce : Block) (source : List UInt8) :
    Option (List UInt8) :=
  (sent.find? fun e => e.nonce = nonce ∧ e.packet cipher = source).map Sent.plain

/-- Both peers, and what was sent so far, oldest first. -/
structure Link where
  sender : CryptState
  receiver : CryptState
  sent : List Sent

inductive LinkOp where
  | encrypt (plain : List UInt8)
  | deliver (source : List UInt8)

namespace Link

/-- One call.  An `encrypt` answers with the packet, a delivery with what `decrypt` returns. -/
def step (cipher : Cipher) : LinkOp → Link → Option (Link × Option (List UInt8))
  | .encrypt plain, w =>
    let (sender, packet) := w.sender.encryptWith cipher.sealBody plain
    some ({ w with sender, sent := w.sent ++ [⟨sender.encryptIv, plain⟩] }, some packet)
  | .deliver source, w =>
    let (receiver, plain) := w.receiver.decryptWith (openSent cipher w.sent) source
    some ({ w with receiver }, plain)

/-- Before anything is sent. -/
def start (sender receiver : CryptState) : Link := ⟨sender, receiver, []⟩

end Link

end Baston.Voice
