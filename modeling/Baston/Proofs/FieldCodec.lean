/-
What is written into a bit buffer reads back.

A sequence of fields of any kind and width is a list of bits.  Writing it replaces that
many bits from the cursor on and no others, and reading the fields again from there gives
the values, except that a negative number comes back one larger.
-/
import Baston.Proofs.Downlink

namespace Baston.Rage

open MessageBuffer

/-! ### Fields -/

/-- A field with what is written into it. -/
inductive WireField
  | single (value : UInt32) (length : Nat)
  | bit (value : Bool)
  | bits (src : List UInt8) (length : Nat)
  | long (value : UInt64) (length : Nat)
  | signed (value : Int32) (length : Nat)
  deriving DecidableEq

/-- What a field is read as. -/
inductive FieldValue
  | word (value : UInt32)
  | flag (value : Bool)
  | bits (value : List Bool)
  | long (value : UInt64)
  | signed (value : Int32)
  deriving DecidableEq

namespace WireField

/-- The write of a field. -/
def write : WireField → BitW
  | .single value length => writeBitsSingle value length
  | .bit value => writeBit value
  | .bits src length => writeBits src length
  | .long value length => BitW.long value length
  | .signed value length => BitW.signed value length

/-- The read that corresponds to it.  It knows the width, and not the value; a run of bits is read
into just enough bytes. -/
def read : WireField → BitM FieldValue
  | .single _ length => do return .word (← BitM.bits length)
  | .bit _ => do return .flag (← BitM.bit)
  | .bits _ length => do
    return .bits (bitsFrom (← BitM.bytes ((length + 7) / 8) length) 0 length)
  | .long _ length => do return .long (← BitM.long length)
  | .signed _ length => do return .signed (← BitM.signed length)

/-- What a field reads back as. -/
def readBack : WireField → FieldValue
  | .single value _ => .word value
  | .bit value => .flag value
  | .bits src length => .bits (bitsFrom src 0 length)
  | .long value _ => .long value
  | .signed value _ => .signed (if value < 0 then value + 1 else value)

/-- The width is one that can be read, and the value fits it. -/
def Legal (lengthHack : Bool) : WireField → Prop
  | .single value length => length ≤ 32 ∧ value.toNat < 2 ^ fieldWidth lengthHack length
  | .bit _ => True
  | .bits src length => length ≤ src.length * 8
  | .long value length => 1 ≤ length ∧ length ≤ 64 ∧
    value.toNat < if length ≤ 32 then 2 ^ fieldWidth lengthHack length
      else 2 ^ (32 + fieldWidth lengthHack (length - 32))
  | .signed value length => 1 ≤ length ∧ length ≤ 32 ∧
    -(2 ^ fieldWidth lengthHack (length - 1) : Int) ≤ value.toInt ∧
    value.toInt < 2 ^ fieldWidth lengthHack (length - 1)

instance (lengthHack : Bool) : ∀ f : WireField, Decidable (f.Legal lengthHack)
  | .single _ _ => inferInstanceAs (Decidable (_ ∧ _))
  | .bit _ => inferInstanceAs (Decidable True)
  | .bits _ _ => inferInstanceAs (Decidable (_ ≤ _))
  | .long _ _ => inferInstanceAs (Decidable (_ ∧ _ ∧ _))
  | .signed _ _ => inferInstanceAs (Decidable (_ ∧ _ ∧ _ ∧ _))

/-- The sign a signed field holds. -/
def sign (value : Int32) : UInt32 := if value < 0 then 1 else 0

/-- The magnitude it holds behind the sign. -/
def magnitude (value : Int32) : UInt32 := (value ^^^ if value < 0 then -1 else 0).toUInt32

/-- The bits a field is written as. -/
def encoded (lengthHack : Bool) : WireField → List Bool
  | .single value length => Bits.msb (fieldWidth lengthHack length) value.toNat
  | .bit value => [value]
  | .bits src length => bitsFrom src 0 length
  | .long value length =>
    if length ≤ 32 then Bits.msb (fieldWidth lengthHack length) value.toUInt32.toNat
    else Bits.msb 32 value.toUInt32.toNat
      ++ Bits.msb (fieldWidth lengthHack (length - 32)) (value >>> 32).toUInt32.toNat
  | .signed value length =>
    Bits.msb 1 (sign value).toNat
      ++ Bits.msb (fieldWidth lengthHack (length - 1)) (magnitude value).toNat

end WireField

/-! ### Writing -/

/-- Whatever was written to `buf` lies before the cursor of `buf'`. -/
structure MessageBuffer.Beyond (buf buf' : MessageBuffer) : Prop where
  bound : buf'.maxBit = buf.maxBit
  size : buf'.data.length = buf.data.length
  cursor : buf.curBit ≤ buf'.curBit
  keeps : ∀ k, buf'.curBit ≤ k → bitOf buf'.data k = bitOf buf.data k

namespace MessageBuffer.Beyond

theorem refl (buf : MessageBuffer) : Beyond buf buf := ⟨rfl, rfl, Nat.le_refl _, fun _ _ => rfl⟩

theorem trans {a b c : MessageBuffer} (h1 : Beyond a b) (h2 : Beyond b c) : Beyond a c where
  bound := h2.bound.trans h1.bound
  size := h2.size.trans h1.size
  cursor := h1.cursor.trans h2.cursor
  keeps := fun k hk => (h2.keeps k hk).trans (h1.keeps k (h2.cursor.trans hk))

end MessageBuffer.Beyond

namespace BitW

/-- On a buffer bounded by its bytes, `w` writes nothing behind the cursor it leaves. -/
def KeepsBeyond (w : BitW) : Prop :=
  ∀ buf : MessageBuffer, buf.maxBit = buf.data.length * 8 → Beyond buf (w buf).2

theorem keepsBeyond_field {n : Nat} (hn : n ≤ 32) (value : UInt32) :
    KeepsBeyond (writeBitsSingle value n) := by
  intro buf hsize
  have hlen := buf.effectiveLen_le hn
  unfold writeBitsSingle
  simp only
  split
  · exact .refl buf
  · refine ⟨rfl, length_scatter _ _ _ _, Nat.le_add_right _ _, fun k hk => ?_⟩
    simp only at hk
    rw [bitOf_scatter value hlen (by omega), if_neg (by omega)]

theorem keepsBeyond_bit (b : Bool) : KeepsBeyond (writeBit b) := by
  intro buf _
  have hb : b.toUInt8.toNat ≤ 1 := by cases b <;> decide
  unfold writeBit
  split
  · exact .refl buf
  · refine ⟨rfl, length_putBit _ _ _, Nat.le_add_right _ _, fun k hk => ?_⟩
    simp only at hk
    rw [bitOf_putBit (by omega) hb, if_neg (by omega)]

theorem keepsBeyond_blob {src : List UInt8} {length : Nat} (hsrc : length ≤ src.length * 8) :
    KeepsBeyond (writeBits src length) := by
  intro buf hsize
  unfold writeBits
  split
  · exact .refl buf
  · refine ⟨rfl, length_copyBits (by omega) (by omega), Nat.le_add_right _ _, fun k hk => ?_⟩
    simp only at hk
    rw [bitOf_copyBits (by omega) (by omega), if_neg (by omega)]

theorem KeepsBeyond.and {w1 w2 : BitW} (h1 : KeepsBeyond w1) (h2 : KeepsBeyond w2) :
    KeepsBeyond (BitW.and w1 w2) := by
  intro buf hsize
  have hfirst := h1 buf hsize
  unfold BitW.and
  rcases h : w1 buf with ⟨_ | _, mid⟩
  · rw [h] at hfirst
    exact hfirst
  · rw [h] at hfirst
    exact hfirst.trans (h2 mid (by rw [hfirst.bound, hfirst.size]; exact hsize))

end BitW

/-! ### Signed numbers -/

/-- The magnitude of a number, as a number. -/
theorem WireField.magnitude_toNat (value : Int32) :
    ((WireField.magnitude value).toNat : Int)
      = if value < 0 then -value.toInt - 1 else value.toInt := by
  have hval : value.toInt = _ := BitVec.toInt_eq_toNat_cond value.toBitVec
  have hlt := value.toBitVec.isLt
  have hneg : value < 0 ↔ value.toInt < 0 := Int32.lt_iff_toInt_lt
  unfold WireField.magnitude
  by_cases h : value < 0
  · have hnot : (~~~value).toUInt32.toNat = 2 ^ 32 - 1 - value.toBitVec.toNat := BitVec.toNat_not
    rw [if_pos h, if_pos h, Int32.xor_neg_one, hnot]
    rw [hneg] at h
    split at hval
    · omega
    · omega
  · have hsame : value.toUInt32.toNat = value.toBitVec.toNat := rfl
    rw [if_neg h, if_neg h, Int32.xor_zero, hsame]
    rw [hneg] at h
    split at hval
    · omega
    · omega

/-- Sign and magnitude put together as the reader does. -/
theorem WireField.join_signed (value : Int32) :
    (WireField.sign value).toInt32
        + ((WireField.magnitude value).toInt32 ^^^ -(WireField.sign value).toInt32)
      = if value < 0 then value + 1 else value := by
  unfold WireField.magnitude WireField.sign
  rw [Int32.toInt32_toUInt32 (value ^^^ if value < 0 then -1 else 0)]
  by_cases hneg : value < 0
  · rw [if_pos hneg, if_pos hneg, if_pos hneg, Int32.xor_assoc]
    exact (congrArg (1 + ·) (Int32.xor_zero (a := value))).trans (Int32.add_comm 1 value)
  · rw [if_neg hneg, if_neg hneg, if_neg hneg, Int32.xor_zero]
    exact (Int32.zero_add _).trans (Int32.xor_zero)

/-- A number that fits its field has a magnitude that fits behind the sign. -/
theorem WireField.magnitude_lt {value : Int32} {width : Nat} (hlow : -(2 ^ width : Int) ≤ value.toInt)
    (hhigh : value.toInt < 2 ^ width) : (WireField.magnitude value).toNat < 2 ^ width := by
  have hmag := WireField.magnitude_toNat value
  have hcast : ((2 ^ width : Nat) : Int) = 2 ^ width := by push_cast; rfl
  split at hmag
  · omega
  · omega

/-! ### One field -/

namespace WireField

variable {lengthHack : Bool} {f : WireField}

theorem fieldWidth_le {n m : Nat} (hn : n ≤ m) (hm : 16 ≤ m) : fieldWidth lengthHack n ≤ m := by
  unfold fieldWidth
  split
  · exact hm
  · exact hn

theorem sign_toNat (value : Int32) : (sign value).toNat < 2 ^ 1 := by
  unfold sign
  split
  · decide
  · decide

/-- The low word of a long of up to 32 bits is the long. -/
theorem toUInt32_toNat {value : UInt64} {width : Nat} (hwidth : width ≤ 32)
    (h : value.toNat < 2 ^ width) : value.toUInt32.toNat = value.toNat := by
  have hpow : 2 ^ width ≤ 2 ^ 32 := Nat.pow_le_pow_right (by decide) hwidth
  rw [UInt64.toNat_toUInt32, Nat.mod_eq_of_lt (by omega)]

theorem shift_toNat (value : UInt64) : (value >>> 32).toUInt32.toNat = value.toNat / 2 ^ 32 := by
  have hlt := value.toNat_lt
  rw [UInt64.toNat_toUInt32, UInt64.toNat_shiftRight, Nat.shiftRight_eq_div_pow]
  show value.toNat / 2 ^ 32 % 2 ^ 32 = _
  omega

theorem emits_plain {n : Nat} (hn : n ≤ 32) (h13 : n ≠ 13) (value : UInt32) :
    BitW.Emits lengthHack (writeBitsSingle value n) (Bits.msb n value.toNat) :=
  .field hn (by rw [if_neg (by simp [h13])]) value

theorem reads_plain {n : Nat} (hn : n ≤ 32) (h13 : n ≠ 13) {value : UInt32}
    (hfits : value.toNat < 2 ^ n) :
    BitM.Reads lengthHack (BitM.bits n) (Bits.msb n value.toNat) value :=
  .field hn (by rw [if_neg (by simp [h13])]) hfits

/-- **A field that is written** leaves its bits behind the cursor. -/
theorem emits (h : f.Legal lengthHack) : BitW.Emits lengthHack f.write (f.encoded lengthHack) := by
  cases f with
  | single value length => exact .field h.1 rfl value
  | bit value => exact .bit value
  | bits src length => exact .blob h
  | long value length =>
      obtain ⟨-, hlength, -⟩ := h
      by_cases hshort : length ≤ 32
      · simp only [write, encoded, BitW.long, if_pos hshort]
        exact .field hshort rfl _
      · simp only [write, encoded, BitW.long, if_neg hshort]
        exact (emits_plain (by decide) (by decide) _).and (.field (by omega) rfl _)
  | signed value length =>
      obtain ⟨-, hlength, -⟩ := h
      exact (emits_plain (by decide) (by decide) _).and (.field (by omega) rfl _)

theorem keepsBeyond (h : f.Legal lengthHack) : BitW.KeepsBeyond f.write := by
  cases f with
  | single value length => exact BitW.keepsBeyond_field h.1 value
  | bit value => exact BitW.keepsBeyond_bit value
  | bits src length => exact BitW.keepsBeyond_blob h
  | long value length =>
      obtain ⟨-, hlength, -⟩ := h
      by_cases hshort : length ≤ 32
      · simp only [write, BitW.long, if_pos hshort]
        exact BitW.keepsBeyond_field hshort _
      · simp only [write, BitW.long, if_neg hshort]
        exact (BitW.keepsBeyond_field (by decide) _).and (BitW.keepsBeyond_field (by omega) _)
  | signed value length =>
      obtain ⟨-, hlength, -⟩ := h
      exact (BitW.keepsBeyond_field (by decide) _).and (BitW.keepsBeyond_field (by omega) _)

/-- A run of bits is read into bytes that begin with it. -/
theorem reads_bits (src : List UInt8) (length : Nat) :
    BitM.Reads lengthHack (WireField.bits src length).read (bitsFrom src 0 length)
      (.bits (bitsFrom src 0 length)) := by
  intro buf _ hsize hahead
  rw [← List.append_nil (bitsFrom src 0 length)] at hahead
  have hroom : (bitsFrom src 0 length).length ≤ (length + 7) / 8 * 8 := by
    rw [length_bitsFrom]
    omega
  obtain ⟨bytes, hread, -, hbits, -⟩ := hahead.blob hsize hroom
  rw [length_bitsFrom] at hread hbits
  have hrun : (BitM.bytes ((length + 7) / 8) length).run buf
      = (some bytes, { buf with curBit := buf.curBit + length }) := hread
  unfold read
  rw [BitM.run_bind, hrun, length_bitsFrom]
  simp only
  rw [hbits]
  rfl

/-- **A field ahead of the cursor** reads as what was written into it. -/
theorem reads (h : f.Legal lengthHack) :
    BitM.Reads lengthHack f.read (f.encoded lengthHack) f.readBack := by
  cases f with
  | single value length => exact .map (.field h.1 rfl h.2) rfl
  | bit value => exact .map (.bit value) rfl
  | bits src length => exact reads_bits src length
  | long value length =>
      obtain ⟨hpos, hlength, hfits⟩ := h
      refine .map (a := value) ?_ rfl
      unfold BitM.long
      rw [if_neg (by omega)]
      by_cases hshort : length ≤ 32
      · simp only [encoded, if_pos hshort] at hfits ⊢
        have hlow := toUInt32_toNat (fieldWidth_le hshort (by decide)) hfits
        refine .map (.field hshort rfl (by rw [hlow]; exact hfits)) ?_
        apply UInt64.toNat.inj
        rw [UInt32.toNat_toUInt64, hlow]
      · simp only [encoded, if_neg hshort] at hfits ⊢
        have hhigh : (value >>> 32).toUInt32.toNat < 2 ^ fieldWidth lengthHack (length - 32) := by
          rw [shift_toNat]
          rw [pow_add] at hfits
          exact Nat.div_lt_of_lt_mul hfits
        refine .bind (reads_plain (by decide) (by decide) value.toUInt32.toNat_lt)
          (.map (.field (by omega) rfl hhigh) ?_)
        rw [UInt64.or_comm]
        exact join_words value
  | signed value length =>
      obtain ⟨hpos, hlength, hlow, hhigh⟩ := h
      refine .map (a := if value < 0 then value + 1 else value) ?_ rfl
      unfold BitM.signed
      rw [if_neg (by omega)]
      exact .bind (reads_plain (by decide) (by decide) (sign_toNat value))
        (.map (.field (by omega) rfl (magnitude_lt hlow hhigh)) (join_signed value))

end WireField

/-! ### Sequences of fields -/

namespace WireField

variable {lengthHack : Bool} {fields : List WireField}

/-- Write fields in a row, up to the first that fails. -/
def writeAll (fields : List WireField) : BitW := BitW.all (fields.map write)

/-- Read them in a row. -/
def readAll (fields : List WireField) : BitM (List FieldValue) := BitM.forEach read fields

theorem emits_all (h : ∀ f ∈ fields, f.Legal lengthHack) :
    BitW.Emits lengthHack (writeAll fields) (fields.flatMap (encoded lengthHack)) := by
  induction fields with
  | nil => exact fun buf hbuf _ => .refl hbuf
  | cons f rest ih =>
      rw [List.flatMap_cons]
      exact (emits (h f List.mem_cons_self)).and (ih fun g hg => h g (List.mem_cons_of_mem _ hg))

theorem keepsBeyond_all (h : ∀ f ∈ fields, f.Legal lengthHack) :
    BitW.KeepsBeyond (writeAll fields) := by
  induction fields with
  | nil => exact fun buf _ => .refl buf
  | cons f rest ih =>
      exact (keepsBeyond (h f List.mem_cons_self)).and
        (ih fun g hg => h g (List.mem_cons_of_mem _ hg))

theorem reads_all (h : ∀ f ∈ fields, f.Legal lengthHack) :
    BitM.Reads lengthHack (readAll fields) (fields.flatMap (encoded lengthHack))
      (fields.map readBack) := by
  induction fields with
  | nil => exact .pure []
  | cons f rest ih =>
      rw [List.flatMap_cons]
      exact (reads (h f List.mem_cons_self)).bind
        (.map (ih fun g hg => h g (List.mem_cons_of_mem _ hg)) rfl)

theorem single_past {buf : MessageBuffer} (hpast : buf.maxBit < buf.curBit) (value : UInt32)
    (n : Nat) : writeBitsSingle value n buf = (false, buf) := by
  unfold writeBitsSingle
  simp only
  rw [if_pos (by omega)]

/-- Behind the end of a buffer every write fails. -/
theorem write_past {f : WireField} {buf : MessageBuffer} (hsize : buf.maxBit = buf.data.length * 8)
    (hpast : buf.maxBit < buf.curBit) : (f.write buf).1 = false := by
  have first : ∀ (value : UInt32) (n : Nat) (w : BitW),
      (BitW.and (writeBitsSingle value n) w buf).1 = false := by
    intro value n w
    unfold BitW.and
    rw [single_past hpast]
  cases f with
  | single value length => exact congrArg Prod.fst (single_past hpast value length)
  | bit value =>
      simp only [write, writeBit]
      rw [if_pos (by omega)]
  | bits src length =>
      simp only [write, writeBits]
      rw [if_pos (by omega)]
  | long value length =>
      by_cases hshort : length ≤ 32
      · simp only [write, BitW.long, if_pos hshort]
        exact congrArg Prod.fst (single_past hpast _ _)
      · simp only [write, BitW.long, if_neg hshort]
        exact first _ _ _
  | signed value length => exact first _ _ _

/-- A buffer that was made, with the mode set and the cursor moved. -/
def startAt (buf : MessageBuffer) (lengthHack : Bool) (cursor : Nat) : MessageBuffer :=
  (buf.withLengthHack lengthHack).setCurrentBit cursor

end WireField

/-- The buffers a codec works on. -/
inductive MessageBuffer.Made : MessageBuffer → Prop
  | new (size : Nat) : Made (MessageBuffer.new size)
  | fromBytes (data : List UInt8) : Made (MessageBuffer.fromBytes data)

theorem MessageBuffer.Made.size {buf : MessageBuffer} (h : Made buf) :
    buf.maxBit = buf.data.length * 8 := by
  cases h with
  | new size => simp [MessageBuffer.new]
  | fromBytes data => rfl

namespace WireField

variable {lengthHack : Bool} {fields : List WireField}

/-- What was written from a cursor on is ahead of it, and all that was there before it still is. -/
theorem ahead_of_held {buf buf' : MessageBuffer} {bits : List Bool} (h : Held buf buf' bits) :
    (buf'.setCurrentBit buf.curBit).Ahead bits ∧
      ∀ k, k < buf.curBit → bitOf buf'.data k = bitOf buf.data k := by
  have hbits := h.bits
  have hwithin := h.within
  rw [h.cursor] at hbits hwithin
  rw [bitsFrom_append, Nat.zero_add] at hbits
  obtain ⟨hbefore, hwindow⟩ := List.append_inj hbits (by simp)
  refine ⟨⟨hwithin, hwindow⟩, fun k hk => ?_⟩
  have hbit := congrArg (fun l => l[k]?) hbefore
  simpa [bitsFrom, hk] using hbit

/-- A field written alone, as opposed to a composite one. -/
def alone : WireField → Bool
  | .single _ _ | .bit _ | .bits _ _ => true
  | .long _ _ | .signed _ _ => false

/-- A write that does not fit fails and leaves the buffer as it is. -/
theorem write_unfit {f : WireField} {buf : MessageBuffer} (hmode : buf.lengthHack = lengthHack)
    (hsize : buf.maxBit = buf.data.length * 8) (halone : f.alone = true)
    (hfull : buf.maxBit < buf.curBit + (f.encoded lengthHack).length) :
    f.write buf = (false, buf) := by
  cases f with
  | single value length =>
      simp only [encoded, Bits.length_msb] at hfull
      have hlen : buf.effectiveLen length = fieldWidth lengthHack length := by
        unfold effectiveLen fieldWidth
        rw [hmode]
      simp only [write, writeBitsSingle, hlen]
      rw [if_pos hfull]
  | bit value =>
      simp only [encoded, List.length_singleton] at hfull
      simp only [write, writeBit]
      rw [if_pos (by omega)]
  | bits src length =>
      simp only [encoded, length_bitsFrom] at hfull
      simp only [write, writeBits]
      rw [if_pos hfull]
  | long value length => exact absurd halone (by simp [alone])
  | signed value length => exact absurd halone (by simp [alone])

/-- **Fields that were written read back.**  From any cursor of a buffer, fields that are all
written are read back from that cursor as what was written, and the bits before and behind them
are as they were; and a single field, bit or run of bits that does not fit is not written, and
leaves the buffer as it is. -/
theorem fields_round_trip (made : MessageBuffer) (hmade : Made made) (lengthHack : Bool)
    (cursor : Nat) :
    let start := startAt made lengthHack cursor
    (∀ fields : List WireField, (∀ f ∈ fields, f.Legal lengthHack) →
      (writeAll fields start).1 = true →
      let written := (writeAll fields start).2
      (readAll fields).run (written.setCurrentBit cursor) = (some (fields.map readBack), written) ∧
      written.data.length = made.data.length ∧
      ∀ k, k < cursor ∨ written.curBit ≤ k → bitOf written.data k = bitOf made.data k) ∧
    ∀ f : WireField, f.alone = true →
      made.data.length * 8 < cursor + (f.encoded lengthHack).length →
      f.write start = (false, start) := by
  intro start
  have hsize : start.maxBit = start.data.length * 8 := hmade.size
  constructor
  · intro fields hlegal hok written
    by_cases hwithin : cursor ≤ made.maxBit
    · have hheld : Held start written _ := emits_all hlegal start ⟨⟨rfl, hsize⟩, hwithin⟩ hok
      obtain ⟨hahead, hbefore⟩ := ahead_of_held hheld
      have hbound : written.maxBit ≤ written.data.length * 8 := by
        rw [hheld.bound, hheld.size]
        exact hsize.le
      have hread := reads_all hlegal (written.setCurrentBit cursor) hheld.mode hbound hahead
      refine ⟨hread.trans ?_, hheld.size, ?_⟩
      · congr 1
        show ({ written with curBit := cursor + _ } : MessageBuffer) = written
        rw [show cursor = start.curBit from rfl, ← hheld.cursor]
      · intro k hk
        rcases hk with hk | hk
        · exact hbefore k hk
        · exact (keepsBeyond_all hlegal start hsize).keeps k hk
    · -- nothing can be written there
      cases fields with
      | nil => exact ⟨rfl, rfl, fun _ _ => rfl⟩
      | cons f rest =>
          have hfail := write_past (f := f) hsize (Nat.lt_of_not_le hwithin)
          have hfirst : (BitW.and f.write (writeAll rest) start).1 = true := hok
          unfold BitW.and at hfirst
          rcases h : f.write start with ⟨_ | _, mid⟩
          · rw [h] at hfirst
            exact absurd hfirst (by simp)
          · rw [h] at hfail
            exact absurd hfail (by simp)
  · intro f halone hfull
    exact write_unfit rfl hsize halone (by rw [hsize]; exact hfull)

/-- Fields of every kind that take 91 bits with the length hack. -/
def sampleFields : List WireField :=
  [.single 0xFFFF 13, .bit true, .bits [0xA5, 0x80] 9, .long 0xBEEF12345678 45, .signed (-5) 14]

/-- What they read back as. -/
def sampleValues : List FieldValue :=
  [.word 0xFFFF, .flag true, .bits [true, false, true, false, false, true, false, true, true],
    .long 0xBEEF12345678, .signed (-4)]

/-- They fill twelve bytes from bit 5 on, and a field of 13 bits does not fit behind bit 81. -/
theorem sample_reads_back :
    (writeAll sampleFields (startAt (MessageBuffer.new 12) true 5)).1 = true ∧
      (readAll sampleFields).run
          ((writeAll sampleFields (startAt (MessageBuffer.new 12) true 5)).2.setCurrentBit 5)
        = (some sampleValues, (writeAll sampleFields (startAt (MessageBuffer.new 12) true 5)).2) ∧
      (WireField.single 1 13).write (startAt (MessageBuffer.new 12) true 81)
        = (false, startAt (MessageBuffer.new 12) true 81) :=
  have hok : (writeAll sampleFields (startAt (MessageBuffer.new 12) true 5)).1 = true := by
    decide +kernel
  ⟨hok, ((fields_round_trip (MessageBuffer.new 12) (.new 12) true 5).1 sampleFields
      (by decide) hok).1,
    (fields_round_trip (MessageBuffer.new 12) (.new 12) true 81).2 (.single 1 13) rfl (by decide)⟩

/-- A long of no bits and a signed number of 33 are written, and their readers refuse the width. -/
theorem refused_widths :
    ((WireField.long 0 0).write (MessageBuffer.new 1)).1 = true ∧
      ((WireField.long 0 0).read.run (MessageBuffer.new 1)).1 = none ∧
      ((WireField.signed 5 33).write (MessageBuffer.new 5)).1 = true ∧
      ((WireField.signed 5 33).read.run
        (((WireField.signed 5 33).write (MessageBuffer.new 5)).2.setCurrentBit 0)).1 = none := by
  decide +kernel

end WireField

end Baston.Rage
