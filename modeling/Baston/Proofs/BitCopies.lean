/-
A copy of bits, and a blob that is written and read again.

Aligned or not, a copy puts the bits of the source's window into the destination's and leaves the
others, and no index of it is out of bounds.  A blob is copied twice on its way through a stream,
so what is read where it was written is what was written.
-/
import Baston.Proofs.Machine

namespace Baston.Rage

open MessageBuffer

/-- Bits of a slice, with an end that can be counted. -/
structure BitWindow (bytes : List UInt8) (start length : Nat) : Prop where
  inside : start + length ≤ bytes.length * 8
  counted : start + length < Checked.words

/-- `out` is `dest` with bits of `src` in its window. -/
structure Copied (out dest src : List UInt8) (length destBit srcBit : Nat) : Prop where
  size : out.length = dest.length
  copied : ∀ i, i < length → bitOf out (destBit + i) = bitOf src (srcBit + i)
  kept : ∀ j, j < destBit ∨ destBit + length ≤ j → bitOf out j = bitOf dest j

variable {dest src mid out : List UInt8} {length destBit srcBit start : Nat}

/-- Nothing is a copy of no bits. -/
theorem Copied.nothing (dest src : List UInt8) (destBit srcBit : Nat) :
    Copied dest dest src 0 destBit srcBit :=
  ⟨rfl, fun _ h => absurd h (Nat.not_lt_zero _), fun _ _ => rfl⟩

/-- Copied in and out again. -/
theorem Copied.trans {whole : List UInt8} (h : Copied mid whole src length start srcBit)
    (h' : Copied out dest mid length destBit start) :
    Copied out dest src length destBit srcBit := by
  refine ⟨h'.size, fun i hi => ?_, h'.kept⟩
  rw [h'.copied i hi, h.copied i hi]

theorem copied_copyBits (hdest : destBit + length ≤ dest.length * 8)
    (hsrc : srcBit + length ≤ src.length * 8) :
    Copied (copyBits dest src length destBit srcBit) dest src length destBit srcBit := by
  refine ⟨length_copyBits hdest hsrc, fun i hi => ?_, fun j hj => ?_⟩
  · rw [bitOf_copyBits hdest hsrc, if_pos (by omega), Nat.add_sub_cancel_left]
  · rw [bitOf_copyBits hdest hsrc, if_neg (by omega)]

namespace Machine

/-- A copy between two windows is one, and no index of it is out of bounds. -/
theorem copyBits_copied (hdest : BitWindow dest destBit length) (hsrc : BitWindow src srcBit length) :
    ∃ out, copyBits dest src length destBit srcBit = .ok out
      ∧ Copied out dest src length destBit srcBit :=
  ⟨_, copyBits_eq hdest.inside hsrc.inside hdest.counted hsrc.counted,
    copied_copyBits hdest.inside hsrc.inside⟩

variable {buf : MessageBuffer}

/-- A blob with room in the stream is written. -/
theorem writeBits_copied (hsize : Sized buf) (hwords : buf.maxBit < Checked.words)
    (hroom : buf.curBit + length ≤ buf.maxBit) (hsrc : length ≤ src.length * 8)
    (hsrcWords : src.length * 8 < Checked.words) :
    ∃ data, writeBits src length buf
        = .ok (true, { buf with data := data, curBit := buf.curBit + length })
      ∧ Copied data buf.data src length buf.curBit 0 := by
  unfold Sized at hsize
  have hto : BitWindow buf.data buf.curBit length := ⟨by omega, by omega⟩
  have hfrom : BitWindow src 0 length := ⟨by omega, by omega⟩
  obtain ⟨data, hcopy, hcopied⟩ := copyBits_copied hto hfrom
  refine ⟨data, ?_, hcopied⟩
  unfold writeBits
  rw [Checked.add_eq (by omega), Checked.ok_bind, if_neg (by omega), Checked.mul_eq hsrcWords,
    Checked.ok_bind, Checked.ensure_eq hsrc, Checked.ok_bind, hcopy, Checked.ok_bind]
  rfl

/-- A blob that is in the stream is read. -/
theorem readBitsInto_copied (hsize : Sized buf) (hwords : buf.maxBit < Checked.words)
    (hroom : buf.curBit + length ≤ buf.maxBit) (hdest : length ≤ dest.length * 8)
    (hdestWords : dest.length * 8 < Checked.words) :
    ∃ out, readBitsInto dest length buf
        = .ok (true, out, { buf with curBit := buf.curBit + length })
      ∧ Copied out dest buf.data length 0 buf.curBit := by
  unfold readBitsInto
  by_cases hzero : length = 0
  · subst hzero
    refine ⟨dest, ?_, .nothing dest buf.data 0 buf.curBit⟩
    rw [if_pos rfl]
    rfl
  · unfold Sized at hsize
    have hto : BitWindow dest 0 length := ⟨by omega, by omega⟩
    have hfrom : BitWindow buf.data buf.curBit length := ⟨by omega, by omega⟩
    obtain ⟨out, hcopy, hcopied⟩ := copyBits_copied hto hfrom
    refine ⟨out, ?_, hcopied⟩
    rw [if_neg hzero, Checked.add_eq (by omega), Checked.ok_bind, if_neg (by omega),
      Checked.mul_eq hdestWords, Checked.ok_bind, Checked.ensure_eq hdest, Checked.ok_bind, hcopy,
      Checked.ok_bind]
    rfl

/-- Reading into fresh bytes is reading. -/
theorem readBits_eq_readBitsInto (size length : Nat) (buf : MessageBuffer) :
    readBits size length buf = (readBitsInto (List.replicate size 0) length buf).map
      fun r => (if r.1 then some r.2.1 else none, r.2.2) := by
  unfold readBits readBitsInto
  split
  · rfl
  · rw [List.length_replicate]
    cases Checked.add buf.curBit length with
    | error e => rfl
    | ok stop =>
        simp only [Checked.ok_bind]
        split
        · rfl
        · cases Checked.mul size 8 with
          | error e => rfl
          | ok room =>
              simp only [Checked.ok_bind]
              cases Checked.ensure (room ≥ length) with
              | error e => rfl
              | ok _ =>
                  simp only [Checked.ok_bind]
                  cases copyBits (List.replicate size 0) buf.data length 0 buf.curBit with
                  | error e => rfl
                  | ok out => rfl

/-- **Every copy is bit by bit**, aligned or not, and a blob that was written is read. -/
theorem copies_bit_by_bit :
    (∀ dest src length destBit srcBit,
      BitWindow dest destBit length → BitWindow src srcBit length →
        ∃ out, copyBits dest src length destBit srcBit = .ok out
          ∧ Copied out dest src length destBit srcBit)
      ∧ ∀ (buf : MessageBuffer) src dest length,
        Sized buf → buf.maxBit < Checked.words → buf.curBit + length ≤ buf.maxBit →
        length ≤ src.length * 8 → src.length * 8 < Checked.words →
        length ≤ dest.length * 8 → dest.length * 8 < Checked.words →
          ∃ written out, writeBits src length buf = .ok (true, written)
            ∧ Copied written.data buf.data src length buf.curBit 0
            ∧ readBitsInto dest length (written.setCurrentBit buf.curBit)
                = .ok (true, out, written)
            ∧ Copied out dest src length 0 0 := by
  refine ⟨fun dest src length destBit srcBit => copyBits_copied, ?_⟩
  intro buf src dest length hsize hwords hroom hsrc hsrcWords hdest hdestWords
  obtain ⟨data, hwrite, hcopied⟩ := writeBits_copied hsize hwords hroom hsrc hsrcWords
  have hsize' : Sized { buf with data := data } := by
    unfold Sized
    rw [hcopied.size]
    exact hsize
  obtain ⟨out, hread, hout⟩ := readBitsInto_copied hsize' hwords hroom hdest hdestWords
  exact ⟨_, out, hwrite, hcopied, hread, hcopied.trans hout⟩

/-- Nine misaligned bits, and thirteen of a blob written behind three others. -/
theorem misaligned_copies :
    (∃ out, copyBits [0xFF, 0xFF] [0xA5, 0x5A] 9 3 5 = .ok out
      ∧ Copied out [0xFF, 0xFF] [0xA5, 0x5A] 9 3 5)
      ∧ ∃ written out,
        writeBits [0xDE, 0xAD] 13 ⟨[0xA0, 0, 0], 3, 24, false⟩ = .ok (true, written)
          ∧ Copied written.data [0xA0, 0, 0] [0xDE, 0xAD] 13 3 0
          ∧ readBitsInto [0xFF, 0xFF] 13 (written.setCurrentBit 3) = .ok (true, out, written)
          ∧ Copied out [0xFF, 0xFF] [0xDE, 0xAD] 13 0 0 := by
  have hsize : Sized ⟨[0xA0, 0, 0], 3, 24, false⟩ := show 24 ≤ 3 * 8 by decide
  refine ⟨copies_bit_by_bit.1 _ _ _ _ _ ⟨by decide, by decide⟩ ⟨by decide, by decide⟩, ?_⟩
  exact copies_bit_by_bit.2 ⟨[0xA0, 0, 0], 3, 24, false⟩ [0xDE, 0xAD] [0xFF, 0xFF] 13 hsize
    (by decide) (by decide) (by decide) (by decide) (by decide) (by decide)

end Machine

end Baston.Rage
