/-
Runs of bits copied in and out of a `MessageBuffer`.

A copy takes a byte-wise path when everything is aligned and goes bit by bit otherwise; seen
as bits both do the same.  A blob that was written into a stream is ahead of a reader as the
list of its bits, and the bytes that are read from there are the blob.
-/
import Baston.Proofs.Buffer

namespace Baston.Rage

namespace MessageBuffer

/-! ### Copying -/

/-- The first `m` turns of the bitwise copy loop. -/
private def copyTurns (dest src : List UInt8) (destBit srcBit m : Nat) : List UInt8 :=
  (List.range m).foldl (fun dest i => putBit dest (destBit + i) (bitAt src (srcBit + i))) dest

private theorem copyTurns_succ (dest src : List UInt8) (destBit srcBit m : Nat) :
    copyTurns dest src destBit srcBit (m + 1)
      = putBit (copyTurns dest src destBit srcBit m) (destBit + m) (bitAt src (srcBit + m)) := by
  unfold copyTurns
  rw [List.range_succ, List.foldl_append]
  rfl

private theorem length_copyTurns (dest src : List UInt8) (destBit srcBit : Nat) :
    ∀ m, (copyTurns dest src destBit srcBit m).length = dest.length := by
  intro m
  induction m with
  | zero => rfl
  | succ m ih => rw [copyTurns_succ, length_putBit, ih]

private theorem bitOf_copyTurns {dest src : List UInt8} {destBit srcBit length : Nat}
    (hdest : destBit + length ≤ dest.length * 8) (j : Nat) : ∀ m, m ≤ length →
    bitOf (copyTurns dest src destBit srcBit m) j
      = if destBit ≤ j ∧ j < destBit + m then bitOf src (srcBit + (j - destBit))
        else bitOf dest j := by
  intro m
  induction m with
  | zero =>
      intro _
      rw [if_neg (by omega)]
      rfl
  | succ m ih =>
      intro hm
      have hbit := bitAt_toNat src (srcBit + m)
      rw [copyTurns_succ, bitOf_putBit (by rw [length_copyTurns]; omega)
        (by rw [hbit]; exact Bool.toNat_le _), ih (by omega), hbit]
      by_cases hj : j = destBit + m
      · subst hj
        rw [if_pos rfl, if_pos (by omega), show destBit + m - destBit = m by omega]
        cases bitOf src (srcBit + m) <;> rfl
      · rw [if_neg hj]
        by_cases hin : destBit ≤ j ∧ j < destBit + m
        · rw [if_pos hin, if_pos (by omega)]
        · rw [if_neg hin, if_neg (by omega)]

@[simp] theorem length_copyBits {dest src : List UInt8} {length destBit srcBit : Nat}
    (hdest : destBit + length ≤ dest.length * 8) (hsrc : srcBit + length ≤ src.length * 8) :
    (copyBits dest src length destBit srcBit).length = dest.length := by
  unfold copyBits
  split
  · rw [List.length_append, List.length_append, List.length_take, List.length_take,
      List.length_drop, List.length_drop]
    omega
  · exact length_copyTurns dest src destBit srcBit length

/-- **A copy replaces the bits of its window** by those of the source, and no others. -/
theorem bitOf_copyBits {dest src : List UInt8} {length destBit srcBit : Nat}
    (hdest : destBit + length ≤ dest.length * 8) (hsrc : srcBit + length ≤ src.length * 8)
    (j : Nat) :
    bitOf (copyBits dest src length destBit srcBit) j
      = if destBit ≤ j ∧ j < destBit + length then bitOf src (srcBit + (j - destBit))
        else bitOf dest j := by
  unfold copyBits
  by_cases haligned : destBit % 8 = 0 ∧ srcBit % 8 = 0 ∧ length % 8 = 0
  · rw [if_pos haligned]
    have hhead : (dest.take (destBit / 8)).length = destBit / 8 := by
      rw [List.length_take]
      omega
    have hmid : ((src.drop (srcBit / 8)).take (length / 8)).length = length / 8 := by
      rw [List.length_take, List.length_drop]
      omega
    unfold bitOf
    rw [List.append_assoc]
    by_cases hbefore : j < destBit
    · rw [if_neg (by omega), List.getD_append _ _ _ _ (by omega)]
      simp only [List.getD_eq_getElem?_getD]
      rw [List.getElem?_take_of_lt (by omega)]
    · rw [List.getD_append_right _ _ _ _ (by omega), hhead]
      by_cases hin : j < destBit + length
      · rw [if_pos (by omega), List.getD_append _ _ _ _ (by omega)]
        simp only [List.getD_eq_getElem?_getD]
        rw [List.getElem?_take_of_lt (by omega), List.getElem?_drop,
          show srcBit / 8 + (j / 8 - destBit / 8) = (srcBit + (j - destBit)) / 8 by omega,
          show j % 8 = (srcBit + (j - destBit)) % 8 by omega]
      · rw [if_neg (by omega), List.getD_append_right _ _ _ _ (by omega), hmid]
        simp only [List.getD_eq_getElem?_getD]
        rw [List.getElem?_drop,
          show destBit / 8 + length / 8 + (j / 8 - destBit / 8 - length / 8) = j / 8 by omega]
  · rw [if_neg haligned]
    exact bitOf_copyTurns hdest j length le_rfl

/-! ### Bytes and their bits -/

/-- Bytes are determined by their bits. -/
theorem eq_of_bitsFrom {xs ys : List UInt8} (hlen : xs.length = ys.length)
    (h : bitsFrom xs 0 (xs.length * 8) = bitsFrom ys 0 (xs.length * 8)) : xs = ys := by
  have hbit : ∀ k, k < xs.length * 8 → bitOf xs k = bitOf ys k := by
    intro k hk
    have := congrArg (fun l => l[k]?) h
    simpa [bitsFrom, hk] using this
  refine List.ext_getElem hlen ?_
  intro i hi hi'
  apply UInt8.toBitVec_inj.mp
  apply BitVec.eq_of_getLsbD_eq
  intro j hj
  have := hbit (i * 8 + (7 - j)) (by omega)
  unfold bitOf at this
  rw [show (i * 8 + (7 - j)) / 8 = i by omega, show 7 - (i * 8 + (7 - j)) % 8 = j by omega,
    List.getD_eq_getElem _ _ hi, List.getD_eq_getElem _ _ hi'] at this
  exact this

end MessageBuffer

/-! ### Writing -/

namespace BitW

open MessageBuffer

variable {lengthHack : Bool}

/-- A blob appends its bits. -/
theorem Appends.blob {src : List UInt8} {length : Nat} (hsrc : length ≤ src.length * 8) :
    Appends lengthHack (writeBits src length) (bitsFrom src 0 length) := by
  intro buf _ hsize hfit
  rw [length_bitsFrom] at hfit
  unfold writeBits
  rw [if_neg (by omega)]
  have hlen : (copyBits buf.data src length buf.curBit 0).length = buf.data.length :=
    length_copyBits (by omega) (by omega)
  refine ⟨rfl, ?_, rfl, rfl, hlen, ?_⟩
  · rw [length_bitsFrom]
  · simp only
    rw [bitsFrom_append, Nat.zero_add]
    congr 1
    · apply bitsFrom_congr
      intro k _ hk
      rw [bitOf_copyBits (by omega) (by omega), if_neg (by omega)]
    · unfold bitsFrom
      apply List.map_congr_left
      intro i hi
      have hi' : i < length := List.mem_range.mp hi
      rw [bitOf_copyBits (by omega) (by omega), if_pos (by omega),
        show buf.curBit + i - buf.curBit = i by omega]

/-- One bit appends itself. -/
theorem Appends.bit (b : Bool) : Appends lengthHack (writeBit b) [b] := by
  intro buf _ hsize hfit
  rw [List.length_singleton] at hfit
  unfold writeBit
  rw [if_neg (by omega)]
  have hb : b.toUInt8.toNat ≤ 1 := by cases b <;> decide
  refine ⟨rfl, rfl, rfl, rfl, length_putBit _ _ _, ?_⟩
  simp only
  rw [bitsFrom_succ, Nat.zero_add, bitOf_putBit (by omega) hb, if_pos rfl]
  congr 1
  · apply bitsFrom_congr
    intro k _ hk
    rw [bitOf_putBit (by omega) hb, if_neg (by omega)]
  · cases b <;> rfl

end BitW

/-! ### Fields in a row -/

/-- The real width of a field of nominally `n` bits. -/
def fieldWidth (lengthHack : Bool) (n : Nat) : Nat := if n = 13 ∧ lengthHack then 16 else n

/-- The bits of fields in a row, each with its nominal width. -/
def fieldsBits (lengthHack : Bool) (fields : List (Nat × UInt32)) : List Bool :=
  fields.flatMap fun f => Bits.msb (fieldWidth lengthHack f.1) f.2.toNat

theorem fieldsBits_append (lengthHack : Bool) (xs ys : List (Nat × UInt32)) :
    fieldsBits lengthHack (xs ++ ys) = fieldsBits lengthHack xs ++ fieldsBits lengthHack ys := by
  unfold fieldsBits
  rw [List.flatMap_append]

theorem length_fieldsBits (lengthHack : Bool) (fs : List (Nat × UInt32)) :
    (fieldsBits lengthHack fs).length = (fs.map fun f => fieldWidth lengthHack f.1).sum := by
  unfold fieldsBits
  rw [List.length_flatMap]
  simp only [Bits.length_msb]

namespace BitW

open MessageBuffer

theorem and_assoc (a b c : BitW) : and (and a b) c = and a (and b c) := by
  funext buf
  unfold BitW.and
  rcases a buf with ⟨ok, mid⟩
  cases ok <;> rfl

theorem all_append (xs ys : List BitW) : all (xs ++ ys) = and (all xs) (all ys) := by
  induction xs with
  | nil => rfl
  | cons w rest ih => rw [List.cons_append, all, ih, all, and_assoc]

theorem all_singleton (w : BitW) : all [w] = w := by
  funext buf
  unfold BitW.all BitW.all BitW.and
  rcases w buf with ⟨ok, mid⟩
  cases ok <;> rfl

/-- Fields in a row. -/
def fields (fs : List (Nat × UInt32)) : BitW := all (fs.map fun f => writeBitsSingle f.2 f.1)

theorem Appends.fields {lengthHack : Bool} : ∀ {fs : List (Nat × UInt32)},
    (∀ f ∈ fs, f.1 ≤ 32) → Appends lengthHack (BitW.fields fs) (fieldsBits lengthHack fs) := by
  intro fs
  induction fs with
  | nil =>
      intro _
      exact .nil
  | cons f rest ih =>
      intro h
      exact (Appends.field (h f List.mem_cons_self) rfl f.2).and
        (ih fun g hg => h g (List.mem_cons_of_mem _ hg))

end BitW

/-! ### Writers that succeeded -/

/-- A buffer in the given mode, bounded by its bytes. -/
structure MessageBuffer.Bounded (lengthHack : Bool) (buf : MessageBuffer) : Prop where
  mode : buf.lengthHack = lengthHack
  size : buf.maxBit = buf.data.length * 8

/-- Such a buffer with its cursor within the bound. -/
structure MessageBuffer.Writable (lengthHack : Bool) (buf : MessageBuffer) : Prop
    extends Bounded lengthHack buf where
  within : buf.curBit ≤ buf.maxBit

/-- `bits` were appended to `buf`, which had room for them. -/
structure MessageBuffer.Held (buf buf' : MessageBuffer) (bits : List Bool) : Prop
    extends Appended buf buf' bits where
  within : buf'.curBit ≤ buf'.maxBit

namespace MessageBuffer

theorem Held.refl {lengthHack : Bool} {buf : MessageBuffer} (h : Writable lengthHack buf) :
    Held buf buf [] :=
  ⟨.refl buf, h.within⟩

theorem Held.trans {a b c : MessageBuffer} {b1 b2 : List Bool} (h1 : Held a b b1)
    (h2 : Held b c b2) : Held a c (b1 ++ b2) :=
  ⟨h1.toAppended.trans h2.toAppended, h2.within⟩

theorem Writable.held {lengthHack : Bool} {buf buf' : MessageBuffer} {bits : List Bool}
    (h : Writable lengthHack buf) (hheld : Held buf buf' bits) : Writable lengthHack buf' where
  mode := hheld.mode.trans h.mode
  size := by rw [hheld.bound, hheld.size]; exact h.size
  within := hheld.within

end MessageBuffer

namespace BitW

open MessageBuffer

/-- Whenever `w` succeeds on a buffer bounded by its bytes, it has appended `bits`. -/
def Emits (lengthHack : Bool) (w : BitW) (bits : List Bool) : Prop :=
  ∀ buf : MessageBuffer, Writable lengthHack buf → (w buf).1 = true → Held buf (w buf).2 bits

variable {lengthHack : Bool}

/-- What appends where there is room has appended when it checked for it. -/
theorem Emits.of_appends {w : BitW} {bits : List Bool} (h : Appends lengthHack w bits)
    (hroom : ∀ buf : MessageBuffer, Writable lengthHack buf → (w buf).1 = true →
      buf.curBit + bits.length ≤ buf.maxBit) : Emits lengthHack w bits := by
  intro buf hbuf hok
  have hfit := hroom buf hbuf hok
  have happ := (h buf hbuf.mode hbuf.size.le hfit).2
  exact ⟨happ, by rw [happ.cursor, happ.bound]; exact hfit⟩

theorem Emits.field {n width : Nat} (hn : n ≤ 32)
    (hwidth : width = if n = 13 ∧ lengthHack then 16 else n) (value : UInt32) :
    Emits lengthHack (writeBitsSingle value n) (Bits.msb width value.toNat) := by
  refine .of_appends (.field hn hwidth value) ?_
  intro buf hbuf hok
  have hlen : buf.effectiveLen n = width := by
    unfold effectiveLen
    rw [hbuf.mode, hwidth]
  rw [Bits.length_msb]
  unfold writeBitsSingle at hok
  simp only [hlen] at hok
  by_contra hfull
  rw [if_pos (by omega)] at hok
  exact absurd hok (by simp)

theorem Emits.bit (b : Bool) : Emits lengthHack (writeBit b) [b] := by
  refine .of_appends (.bit b) ?_
  intro buf hbuf hok
  have hsize := hbuf.size
  rw [List.length_singleton]
  unfold writeBit at hok
  by_contra hfull
  rw [if_pos (by omega)] at hok
  exact absurd hok (by simp)

theorem Emits.blob {src : List UInt8} {length : Nat} (hsrc : length ≤ src.length * 8) :
    Emits lengthHack (writeBits src length) (bitsFrom src 0 length) := by
  refine .of_appends (.blob hsrc) ?_
  intro buf hbuf hok
  rw [length_bitsFrom]
  unfold writeBits at hok
  by_contra hfull
  rw [if_pos (by omega)] at hok
  exact absurd hok (by simp)

theorem Emits.and {w1 w2 : BitW} {b1 b2 : List Bool} (h1 : Emits lengthHack w1 b1)
    (h2 : Emits lengthHack w2 b2) : Emits lengthHack (BitW.and w1 w2) (b1 ++ b2) := by
  intro buf hbuf hok
  have hheld := h1 buf hbuf
  unfold BitW.and at hok ⊢
  rcases h : w1 buf with ⟨_ | _, mid⟩
  · rw [h] at hok
    exact absurd hok (by simp)
  · rw [h] at hok hheld
    have hheld' := hheld rfl
    exact hheld'.trans (h2 mid (hbuf.held hheld') hok)

end BitW

/-! ### Reading -/

namespace MessageBuffer

/-- A bit ahead of the cursor is read as it is. -/
theorem Ahead.bit {buf : MessageBuffer} {b : Bool} {rest : List Bool} (h : buf.Ahead (b :: rest))
    (hsize : buf.maxBit ≤ buf.data.length * 8) :
    readBit buf = (b, { buf with curBit := buf.curBit + 1 }) ∧
      ({ buf with curBit := buf.curBit + 1 } : MessageBuffer).Ahead rest := by
  obtain ⟨hbound, hbits⟩ := h
  rw [List.length_cons] at hbound hbits
  rw [show rest.length + 1 = 1 + rest.length by omega, bitsFrom_append] at hbits
  obtain ⟨hbit, hrest⟩ := List.append_inj (show _ ++ _ = [b] ++ rest from hbits) (by simp)
  have hb : bitOf buf.data buf.curBit = b := by
    simpa [bitsFrom] using hbit
  refine ⟨?_, ⟨by simp only; omega, hrest⟩⟩
  unfold readBit
  rw [if_neg (by omega)]
  have hval := bitAt_toNat buf.data buf.curBit
  rw [hb] at hval
  cases b with
  | true =>
      rw [show bitAt buf.data buf.curBit = 1 from UInt8.toNat.inj hval]
      rfl
  | false =>
      rw [show bitAt buf.data buf.curBit = 0 from UInt8.toNat.inj hval]
      rfl

/-- A blob ahead of the cursor is read into bytes that begin with its bits. -/
theorem Ahead.blob {buf : MessageBuffer} {bits rest : List Bool} {size : Nat}
    (h : buf.Ahead (bits ++ rest)) (hmax : buf.maxBit ≤ buf.data.length * 8)
    (hsize : bits.length ≤ size * 8) :
    ∃ bytes, readBits size bits.length buf
        = (some bytes, { buf with curBit := buf.curBit + bits.length })
      ∧ bytes.length = size ∧ bitsFrom bytes 0 bits.length = bits
      ∧ ({ buf with curBit := buf.curBit + bits.length } : MessageBuffer).Ahead rest := by
  obtain ⟨hbound, hbits⟩ := h
  rw [List.length_append] at hbound hbits
  rw [bitsFrom_append] at hbits
  obtain ⟨hblob, hrest⟩ := List.append_inj hbits (by rw [length_bitsFrom])
  have hahead : ({ buf with curBit := buf.curBit + bits.length } : MessageBuffer).Ahead rest :=
    ⟨by simp only; omega, hrest⟩
  unfold readBits
  by_cases hnil : bits.length = 0
  · refine ⟨List.replicate size 0, ?_, List.length_replicate, ?_, hahead⟩
    · rw [if_pos hnil, hnil]
      rfl
    · rw [hnil, List.length_eq_zero_iff.mp hnil]
      rfl
  · have hdest : 0 + bits.length ≤ (List.replicate size (0 : UInt8)).length * 8 := by
      rw [List.length_replicate]
      omega
    refine ⟨copyBits (List.replicate size 0) buf.data bits.length 0 buf.curBit, ?_, ?_, ?_, hahead⟩
    · rw [if_neg hnil, if_neg (by omega)]
    · rw [length_copyBits hdest (by omega), List.length_replicate]
    · conv_rhs => rw [← hblob]
      unfold bitsFrom
      apply List.map_congr_left
      intro i hi
      have hi' : i < bits.length := List.mem_range.mp hi
      rw [bitOf_copyBits hdest (by omega), if_pos (by omega), Nat.zero_add, Nat.sub_zero]

/-- Whole bytes that were written read back. -/
theorem Ahead.bytes {buf : MessageBuffer} {src : List UInt8} {rest : List Bool}
    (h : buf.Ahead (bitsFrom src 0 (src.length * 8) ++ rest))
    (hmax : buf.maxBit ≤ buf.data.length * 8) :
    readBits src.length (src.length * 8) buf
        = (some src, { buf with curBit := buf.curBit + src.length * 8 })
      ∧ ({ buf with curBit := buf.curBit + src.length * 8 } : MessageBuffer).Ahead rest := by
  obtain ⟨bytes, hread, hlen, hbits, hahead⟩ := h.blob hmax
    (by rw [length_bitsFrom] : _ ≤ src.length * 8)
  rw [length_bitsFrom] at hread hbits hahead
  have hbytes : bytes = src := eq_of_bitsFrom hlen (by rw [hlen]; exact hbits)
  rw [hbytes] at hread
  exact ⟨hread, hahead⟩

/-- The cursor `n` bits further on. -/
def skipBits (buf : MessageBuffer) (n : Nat) : MessageBuffer :=
  { buf with curBit := buf.curBit + n }

theorem skipBits_skipBits (buf : MessageBuffer) (m n : Nat) :
    (buf.skipBits m).skipBits n = buf.skipBits (m + n) := by
  unfold skipBits
  rw [Nat.add_assoc]

/-- The first bits ahead, and those behind them. -/
theorem Ahead.split {buf : MessageBuffer} {xs ys : List Bool} (h : buf.Ahead (xs ++ ys)) :
    buf.Ahead xs ∧ (buf.skipBits xs.length).Ahead ys := by
  obtain ⟨hbound, hbits⟩ := h
  rw [List.length_append] at hbound hbits
  rw [bitsFrom_append] at hbits
  obtain ⟨hxs, hys⟩ := List.append_inj hbits (by rw [length_bitsFrom])
  exact ⟨⟨by omega, hxs⟩, ⟨by simp only [skipBits]; omega, hys⟩⟩

end MessageBuffer

/-! ### What a reader makes of known bits -/

namespace BitM

open MessageBuffer

/-- In the given mode, `m` reads `bits` off the front of a buffer and makes `a` of them. -/
def Reads {α : Type} (lengthHack : Bool) (m : BitM α) (bits : List Bool) (a : α) : Prop :=
  ∀ buf : MessageBuffer, buf.lengthHack = lengthHack → buf.maxBit ≤ buf.data.length * 8 →
    buf.Ahead bits → m.run buf = (some a, buf.skipBits bits.length)

variable {lengthHack : Bool} {α β : Type}

theorem Reads.pure (a : α) : Reads lengthHack (Pure.pure a : BitM α) [] a := fun _ _ _ _ => rfl

theorem Reads.bind {m : BitM α} {f : α → BitM β} {xs ys : List Bool} {a : α} {b : β}
    (hm : Reads lengthHack m xs a) (hf : Reads lengthHack (f a) ys b) :
    Reads lengthHack (m >>= f) (xs ++ ys) b := by
  intro buf hmode hsize hahead
  obtain ⟨hxs, hys⟩ := hahead.split
  rw [run_bind, hm buf hmode hsize hxs]
  simp only
  rw [hf (buf.skipBits xs.length) hmode hsize hys, skipBits_skipBits, List.length_append]

/-- A reader that ends with what it makes of the last read. -/
theorem Reads.map {m : BitM α} {f : α → β} {xs : List Bool} {a : α} {b : β}
    (hm : Reads lengthHack m xs a) (hb : f a = b) :
    Reads lengthHack (m >>= fun a => Pure.pure (f a)) xs b := by
  have h : Reads lengthHack (m >>= fun a => Pure.pure (f a)) (xs ++ []) (f a) :=
    hm.bind (.pure (f a))
  rwa [List.append_nil, hb] at h

theorem Reads.field {n width : Nat} {v : UInt32} (hn : n ≤ 32)
    (hwidth : width = if n = 13 ∧ lengthHack then 16 else n) (hv : v.toNat < 2 ^ width) :
    Reads lengthHack (bits n) (Bits.msb width v.toNat) v := by
  intro buf hmode _ hahead
  have hlen : buf.effectiveLen n = width := by
    unfold effectiveLen
    rw [hmode, hwidth]
  rw [← List.append_nil (Bits.msb width v.toNat)] at hahead
  obtain ⟨hread, -⟩ := hahead.field hn hlen hv
  rw [UInt32.ofNat_toNat] at hread
  rw [Bits.length_msb]
  exact hread

theorem Reads.bit (b : Bool) : Reads lengthHack bit [b] b := by
  intro buf _ hsize hahead
  obtain ⟨hread, -⟩ := hahead.bit hsize
  show (some (readBit buf).1, (readBit buf).2) = _
  rw [hread]
  rfl

theorem Reads.bytes (src : List UInt8) :
    Reads lengthHack (bytes src.length (src.length * 8)) (bitsFrom src 0 (src.length * 8)) src := by
  intro buf _ hsize hahead
  rw [← List.append_nil (bitsFrom src 0 (src.length * 8))] at hahead
  obtain ⟨hread, -⟩ := hahead.bytes hsize
  rw [length_bitsFrom]
  exact hread

end BitM

end Baston.Rage
