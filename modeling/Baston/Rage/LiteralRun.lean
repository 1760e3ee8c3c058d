/-
LZ4 blocks that hold one run of literals.

A block of the LZ4 format is a token with the length of a literal run in its high
half, more length bytes when that half is full, and the literals; the last sequence of
a block has no match.  A block of one such sequence is what the library emits for data
it finds no match in, and what every decoder reads back verbatim.
-/
import Baston.Rage.Packet

namespace Baston.Rage.LiteralRun

/-- The length bytes after a full token. -/
def writeLength (n : Nat) : List UInt8 := List.replicate (n / 255) 255 ++ [UInt8.ofNat (n % 255)]

/-- Read length bytes up to the first that is not full. -/
def readLength : List UInt8 → Option (Nat × List UInt8)
  | [] => none
  | b :: rest =>
    if b = 255 then (readLength rest).map fun r => (255 + r.1, r.2) else some (b.toNat, rest)

/-- A block of literals. -/
def encode (body : List UInt8) : List UInt8 :=
  if body.length < 15 then UInt8.ofNat (16 * body.length) :: body
  else 0xF0 :: (writeLength (body.length - 15) ++ body)

/-- The literals of a block, when it is one run of at most `bound`. -/
def decode : List UInt8 → Nat → Option (List UInt8)
  | [], _ => none
  | token :: rest, bound =>
    let run :=
      if token.toNat / 16 < 15 then some (token.toNat / 16, rest)
      else (readLength rest).map fun r => (15 + r.1, r.2)
    run.bind fun r => if r.2.length = r.1 ∧ r.1 ≤ bound then some r.2 else none

/-- LZ4 on blocks of literals. -/
def lz4 : Lz4 where
  decompressUsingDict := decode
  decompressPlain := decode
  compressDefault := encode

/-- An inbound clone packet with the given record bytes. -/
def clonePayload (body : List UInt8) : List UInt8 := leBytes 4 netClones.toNat ++ encode body

theorem readLength_writeLength (n : Nat) (rest : List UInt8) :
    readLength (writeLength n ++ rest) = some (n, rest) := by
  have turns : ∀ k r : Nat, r < 255 →
      readLength (List.replicate k 255 ++ ([UInt8.ofNat r] ++ rest)) = some (255 * k + r, rest) := by
    intro k r hr
    induction k with
    | zero =>
        have hne : UInt8.ofNat r ≠ 255 := by
          intro h
          have := congrArg UInt8.toNat h
          rw [UInt8.toNat_ofNat'] at this
          simp at this
          omega
        have hval : (UInt8.ofNat r).toNat = r := by
          rw [UInt8.toNat_ofNat']
          omega
        simp [readLength, hne, hval]
    | succ k ih =>
        rw [List.replicate_succ, List.cons_append]
        unfold readLength
        rw [if_pos rfl, ih]
        simp only [Option.map_some, Option.some.injEq, Prod.mk.injEq, and_true]
        omega
  unfold writeLength
  rw [List.append_assoc, turns _ _ (Nat.mod_lt _ (by decide)), Nat.div_add_mod]

/-- What was packed as literals unpacks to itself. -/
theorem decode_encode (body : List UInt8) (bound : Nat) (h : body.length ≤ bound) :
    decode (encode body) bound = some body := by
  unfold encode
  split
  · rename_i hshort
    have htoken : (UInt8.ofNat (16 * body.length)).toNat / 16 = body.length := by
      rw [UInt8.toNat_ofNat']
      omega
    simp only [decode, htoken, if_pos hshort, Option.bind_some]
    rw [if_pos ⟨trivial, h⟩]
  · rename_i hlong
    have htoken : ¬ (0xF0 : UInt8).toNat / 16 < 15 := by decide
    simp only [decode, if_neg htoken, readLength_writeLength, Option.map_some, Option.bind_some]
    rw [if_pos ⟨by omega, by omega⟩]

/-- A clone payload of literals decodes to the records its body holds. -/
theorem decodeIncoming_clonePayload {body : List UInt8} (h : body.length ≤ inboundScratch)
    (lengthHack : Bool) :
    decodeIncoming lz4 (clonePayload body) lengthHack = some ⟨netClones,
      readRecords (body.length * 8) ((MessageBuffer.fromBytes body).withLengthHack lengthHack)⟩ := by
  have hhead : (leBytes 4 netClones.toNat).length = 4 := by simp [leBytes]
  have htake : (clonePayload body).take 4 = leBytes 4 netClones.toNat := by
    exact List.take_left' hhead
  have hdrop : (clonePayload body).drop 4 = encode body := by
    exact List.drop_left' hhead
  have hty : u32FromLe (leBytes 4 netClones.toNat) = netClones := by decide +kernel
  have hlen : ¬ (clonePayload body).length < 4 := by
    unfold clonePayload
    rw [List.length_append, hhead]
    omega
  unfold decodeIncoming
  rw [if_neg hlen, htake, hty, hdrop]
  simp only [ne_eq, not_true, false_and, if_false]
  rw [show lz4.decompressUsingDict (encode body) inboundScratch = some body from
    decode_encode body _ h]
  rfl

end Baston.Rage.LiteralRun
