/-
`MessageBuffer` as a list of bits.

Position `k` of the bytes is one Boolean, a read of `n` bits is the number the next
`n` of them spell, and a write replaces them.  Everything the clone and ack streams
need of the shifts and masks is here.
-/
import Baston.Lib.Bits
import Baston.Rage.Buffer

namespace Baston.Rage

namespace MessageBuffer

/-! ### Bits of a byte list -/

/-- Bit `k` of `data`, most significant first within each byte. -/
def bitOf (data : List UInt8) (k : Nat) : Bool :=
  (data.getD (k / 8) 0).toBitVec.getLsbD (7 - k % 8)

/-- The `n` bits from `start` on. -/
def bitsFrom (data : List UInt8) (start n : Nat) : List Bool :=
  (List.range n).map fun i => bitOf data (start + i)

@[simp] theorem length_bitsFrom (data : List UInt8) (start n : Nat) :
    (bitsFrom data start n).length = n := by
  unfold bitsFrom
  rw [List.length_map, List.length_range]

theorem bitsFrom_succ (data : List UInt8) (start n : Nat) :
    bitsFrom data start (n + 1) = bitsFrom data start n ++ [bitOf data (start + n)] := by
  unfold bitsFrom
  rw [List.range_succ, List.map_append, List.map_singleton]

theorem bitsFrom_congr {data data' : List UInt8} {start n : Nat}
    (h : ∀ k, start ≤ k → k < start + n → bitOf data k = bitOf data' k) :
    bitsFrom data start n = bitsFrom data' start n := by
  apply List.map_congr_left
  intro i hi
  have hi' : i < n := List.mem_range.mp hi
  exact h (start + i) (by omega) (by omega)

private theorem shift_toNat (k : Nat) : (UInt8.ofNat (7 - k % 8)).toNat % 8 = 7 - k % 8 := by
  rw [UInt8.toNat_ofNat']
  omega

theorem bitAt_toNat (data : List UInt8) (k : Nat) :
    (bitAt data k).toNat = (bitOf data k).toNat := by
  unfold bitAt bitOf
  rw [UInt8.toNat_and, UInt8.toNat_shiftRight, shift_toNat, BitVec.getLsbD, Nat.toNat_testBit,
    Nat.shiftRight_eq_div_pow]
  exact Nat.and_one_is_mod _

/-- What the mask and the shift of a bit write do to the bits of a byte. -/
theorem getLsbD_putByte (x : UInt8) (b : UInt8) (hb : b.toNat ≤ 1) (sh j : Nat) (hsh : sh < 8)
    (hj : j < 8) :
    ((x &&& ~~~(1 <<< UInt8.ofNat sh)) ||| (b <<< UInt8.ofNat sh)).toBitVec.getLsbD j
      = if j = sh then b.toNat == 1 else x.toBitVec.getLsbD j := by
  have hmod : (UInt8.ofNat sh).toBitVec % 8 = BitVec.ofNat 8 sh := by
    apply BitVec.eq_of_toNat_eq
    simp [BitVec.toNat_umod, UInt8.toNat_ofNat']
    omega
  simp only [UInt8.toBitVec_or, UInt8.toBitVec_and, UInt8.toBitVec_not, UInt8.toBitVec_shiftLeft,
    hmod, BitVec.shiftLeft_eq', BitVec.toNat_ofNat, BitVec.getLsbD_or, BitVec.getLsbD_and,
    BitVec.getLsbD_not, BitVec.getLsbD_shiftLeft]
  have hsh' : sh % 2 ^ 8 = sh := by omega
  have hone : (1 : UInt8).toBitVec.getLsbD (j - sh) = decide (j = sh ∨ j < sh) := by
    rw [show (1 : UInt8).toBitVec = 1#8 by rfl, BitVec.getLsbD_one]
    grind
  have hbit : b.toBitVec.getLsbD (j - sh) = (decide (j - sh = 0) && b.toNat == 1) := by
    rcases Nat.le_one_iff_eq_zero_or_eq_one.mp hb with h | h
    · rw [show b = 0 from UInt8.toNat.inj h]
      simp
    · rw [show b = 1 from UInt8.toNat.inj h, show (1 : UInt8).toBitVec = 1#8 by rfl,
        BitVec.getLsbD_one]
      simp
  rw [hsh', hone, hbit]
  by_cases h1 : j = sh
  · subst h1
    simp [hj]
  · by_cases h2 : j < sh
    · simp [h1, h2, hj]
    · simp [h1, h2, hj]
      omega

/-- A bit write changes the bit it names and no other. -/
theorem bitOf_putBit {data : List UInt8} {k : Nat} {b : UInt8} (hk : k / 8 < data.length)
    (hb : b.toNat ≤ 1) (j : Nat) :
    bitOf (putBit data k b) j = if j = k then b.toNat == 1 else bitOf data j := by
  unfold bitOf putBit
  simp only
  by_cases hbyte : j / 8 = k / 8
  · rw [hbyte, List.getD_eq_getElem?_getD, List.getElem?_set_self hk, Option.getD_some,
      getLsbD_putByte _ _ hb _ _ (by omega) (by omega)]
    by_cases hjk : j = k
    · rw [if_pos hjk, if_pos (by omega)]
    · rw [if_neg hjk, if_neg (by omega)]
  · have hjk : j ≠ k := by
      intro h
      exact hbyte (by rw [h])
    rw [if_neg hjk, List.getD_eq_getElem?_getD, List.getElem?_set_ne (fun h => hbyte h.symm),
      ← List.getD_eq_getElem?_getD]

@[simp] theorem length_putBit (data : List UInt8) (k : Nat) (b : UInt8) :
    (putBit data k b).length = data.length := by
  unfold putBit
  exact List.length_set

/-! ### Reading and writing a field -/

/-- A field read is the number its bits spell. -/
theorem gather_toNat (data : List UInt8) (start : Nat) : ∀ n, n ≤ 32 →
    (gather data start n).toNat = Bits.value (bitsFrom data start n) := by
  intro n
  induction n with
  | zero =>
      intro _
      rfl
  | succ n ih =>
      intro hn
      have hv : Bits.value (bitsFrom data start n) < 2 ^ n := by
        have h := Bits.value_lt (bitsFrom data start n)
        rwa [length_bitsFrom] at h
      have hpow : 2 ^ n * 2 ≤ 2 ^ 32 := by
        rw [← pow_succ]
        exact Nat.pow_le_pow_right (by decide) hn
      have hstep : gather data start (n + 1)
          = (gather data start n <<< 1) ||| (bitAt data (start + n)).toUInt32 := by
        unfold gather
        rw [List.range_succ, List.foldl_append]
        rfl
      have hbit : (bitOf data (start + n)).toNat ≤ 1 := Bool.toNat_le _
      rw [hstep, bitsFrom_succ, Bits.value_append_singleton, UInt32.toNat_or,
        UInt32.toNat_shiftLeft, ih (by omega), UInt8.toNat_toUInt32, bitAt_toNat]
      show (Bits.value (bitsFrom data start n) <<< 1) % 2 ^ 32 ||| _ = _
      have hor := Nat.two_pow_add_eq_or_of_lt (i := 1) (b := (bitOf data (start + n)).toNat)
        (by omega) (Bits.value (bitsFrom data start n))
      rw [Nat.shiftLeft_eq, pow_one, Nat.mod_eq_of_lt (by omega), mul_comm]
      exact hor.symm

/-- The bit a field write extracts from its value. -/
private theorem fieldBit_toNat (value : UInt32) (k : Nat) (hk : k < 32) :
    ((value >>> UInt32.ofNat k) &&& 1).toUInt8.toNat = (value.toNat.testBit k).toNat := by
  have hbit : (value.toNat.testBit k).toNat ≤ 1 := Bool.toNat_le _
  have h : ((value >>> UInt32.ofNat k) &&& 1).toNat = (value.toNat.testBit k).toNat := by
    rw [UInt32.toNat_and, UInt32.toNat_shiftRight, UInt32.toNat_ofNat', Nat.toNat_testBit]
    rw [show k % 2 ^ 32 % 32 = k by omega, Nat.shiftRight_eq_div_pow]
    exact Nat.and_one_is_mod _
  rw [UInt32.toNat_toUInt8, h]
  omega

/-- The first `m` turns of the write loop of an `n`-bit field. -/
private def scatterTurns (data : List UInt8) (start n : Nat) (value : UInt32) (m : Nat) :
    List UInt8 :=
  (List.range m).foldl
    (fun data i =>
      putBit data (start + i) ((value >>> UInt32.ofNat (n - 1 - i)) &&& 1).toUInt8)
    data

private theorem scatterTurns_succ (data : List UInt8) (start n : Nat) (value : UInt32) (m : Nat) :
    scatterTurns data start n value (m + 1)
      = putBit (scatterTurns data start n value m) (start + m)
          ((value >>> UInt32.ofNat (n - 1 - m)) &&& 1).toUInt8 := by
  unfold scatterTurns
  rw [List.range_succ, List.foldl_append]
  rfl

private theorem length_scatterTurns (data : List UInt8) (start n : Nat) (value : UInt32) :
    ∀ m, (scatterTurns data start n value m).length = data.length := by
  intro m
  induction m with
  | zero => rfl
  | succ m ih => rw [scatterTurns_succ, length_putBit, ih]

private theorem bitOf_scatterTurns {data : List UInt8} {start n : Nat} (value : UInt32)
    (hn : n ≤ 32) (hfit : start + n ≤ data.length * 8) (j : Nat) : ∀ m, m ≤ n →
    bitOf (scatterTurns data start n value m) j
      = if start ≤ j ∧ j < start + m then value.toNat.testBit (n - 1 - (j - start))
        else bitOf data j := by
  intro m
  induction m with
  | zero =>
      intro _
      rw [if_neg (by omega)]
      rfl
  | succ m ih =>
      intro hm
      have hbit := fieldBit_toNat value (n - 1 - m) (by omega)
      rw [scatterTurns_succ, bitOf_putBit (by rw [length_scatterTurns]; omega)
        (by rw [hbit]; exact Bool.toNat_le _), ih (by omega), hbit]
      by_cases hj : j = start + m
      · subst hj
        rw [if_pos rfl, if_pos (by omega), show start + m - start = m by omega]
        cases value.toNat.testBit (n - 1 - m) <;> rfl
      · rw [if_neg hj]
        by_cases hin : start ≤ j ∧ j < start + m
        · rw [if_pos hin, if_pos (by omega)]
        · rw [if_neg hin, if_neg (by omega)]

@[simp] theorem length_scatter (data : List UInt8) (start n : Nat) (value : UInt32) :
    (scatter data start n value).length = data.length := length_scatterTurns data start n value n

/-- A field write replaces its own bits and no others. -/
theorem bitOf_scatter {data : List UInt8} {start n : Nat} (value : UInt32) (hn : n ≤ 32)
    (hfit : start + n ≤ data.length * 8) (j : Nat) :
    bitOf (scatter data start n value) j
      = if start ≤ j ∧ j < start + n then value.toNat.testBit (n - 1 - (j - start))
        else bitOf data j := bitOf_scatterTurns value hn hfit j n le_rfl

/-- A field reads back as the low bits that were written. -/
theorem bitsFrom_scatter_self {data : List UInt8} {start n : Nat} (value : UInt32)
    (hn : n ≤ 32) (hfit : start + n ≤ data.length * 8) :
    bitsFrom (scatter data start n value) start n = Bits.msb n value.toNat := by
  unfold bitsFrom Bits.msb
  apply List.map_congr_left
  intro i hi
  have hi' : i < n := List.mem_range.mp hi
  rw [bitOf_scatter value hn hfit, if_pos (by omega), show start + i - start = i by omega]

/-- What was written before a field is still there. -/
theorem bitsFrom_scatter_before {data : List UInt8} {start n : Nat} (value : UInt32)
    (hn : n ≤ 32) (hfit : start + n ≤ data.length * 8) (a m : Nat) (h : a + m ≤ start) :
    bitsFrom (scatter data start n value) a m = bitsFrom data a m := by
  apply bitsFrom_congr
  intro k _ hk
  rw [bitOf_scatter value hn hfit, if_neg (by omega)]

theorem bitsFrom_append (data : List UInt8) (start m n : Nat) :
    bitsFrom data start (m + n) = bitsFrom data start m ++ bitsFrom data (start + m) n := by
  unfold bitsFrom
  rw [List.range_add, List.map_append, List.map_map]
  congr 1
  apply List.map_congr_left
  intro i _
  rw [Function.comp_apply, Nat.add_assoc]

/-- What is kept of the bytes keeps its bits. -/
theorem bitsFrom_take (data : List UInt8) {start n m : Nat} (h : start + n ≤ m * 8) :
    bitsFrom (data.take m) start n = bitsFrom data start n := by
  apply bitsFrom_congr
  intro k _ hk
  unfold bitOf
  rw [List.getD_eq_getElem?_getD, List.getElem?_take_of_lt (by omega),
    ← List.getD_eq_getElem?_getD]

/-- The bits of two byte lists in a row. -/
theorem bitsFrom_bytes_append (xs ys : List UInt8) (n : Nat) :
    bitsFrom (xs ++ ys) 0 (xs.length * 8 + n)
      = bitsFrom xs 0 (xs.length * 8) ++ bitsFrom ys 0 n := by
  rw [bitsFrom_append]
  congr 1
  · apply bitsFrom_congr
    intro k _ hk
    unfold bitOf
    rw [List.getD_append _ _ _ _ (by omega)]
  · unfold bitsFrom
    apply List.map_congr_left
    intro i _
    unfold bitOf
    rw [List.getD_append_right _ _ _ _ (by omega),
      show (0 + xs.length * 8 + i) / 8 - xs.length = (0 + i) / 8 by omega,
      show (0 + xs.length * 8 + i) % 8 = (0 + i) % 8 by omega]

theorem effectiveLen_le (buf : MessageBuffer) {n : Nat} (hn : n ≤ 32) :
    buf.effectiveLen n ≤ 32 := by
  unfold effectiveLen
  split
  · decide
  · exact hn

theorem effectiveLen_id (buf : MessageBuffer) :
    buf.effectiveLen 13 = if buf.lengthHack then 16 else 13 := by
  unfold effectiveLen
  cases buf.lengthHack <;> rfl

theorem effectiveLen_plain (buf : MessageBuffer) {n : Nat} (h : n ≠ 13) :
    buf.effectiveLen n = n := by
  unfold effectiveLen
  rw [if_neg (by simp [h])]

theorem dataLength_bounds (buf : MessageBuffer) :
    buf.curBit ≤ buf.dataLength * 8 ∧ buf.dataLength * 8 < buf.curBit + 8 := by
  unfold dataLength
  split
  · omega
  · omega

end MessageBuffer

/-! ### Writing bits in sequence -/

/-- `buf'` is `buf` with `bits` written behind what it holds. -/
structure MessageBuffer.Appended (buf buf' : MessageBuffer) (bits : List Bool) : Prop where
  cursor : buf'.curBit = buf.curBit + bits.length
  bound : buf'.maxBit = buf.maxBit
  mode : buf'.lengthHack = buf.lengthHack
  size : buf'.data.length = buf.data.length
  bits : bitsFrom buf'.data 0 buf'.curBit = bitsFrom buf.data 0 buf.curBit ++ bits

namespace MessageBuffer.Appended

theorem refl (buf : MessageBuffer) : Appended buf buf [] := ⟨rfl, rfl, rfl, rfl, by simp⟩

theorem trans {a b c : MessageBuffer} {b1 b2 : List Bool} (h1 : Appended a b b1)
    (h2 : Appended b c b2) : Appended a c (b1 ++ b2) where
  cursor := by rw [h2.cursor, h1.cursor, List.length_append, Nat.add_assoc]
  bound := h2.bound.trans h1.bound
  mode := h2.mode.trans h1.mode
  size := h2.size.trans h1.size
  bits := by rw [h2.bits, h1.bits, List.append_assoc]

end MessageBuffer.Appended

namespace BitW

open MessageBuffer

/-- In the given mode, `w` appends `bits` to any buffer that has room for them. -/
def Appends (lengthHack : Bool) (w : BitW) (bits : List Bool) : Prop :=
  ∀ buf : MessageBuffer, buf.lengthHack = lengthHack → buf.maxBit ≤ buf.data.length * 8 →
    buf.curBit + bits.length ≤ buf.maxBit → (w buf).1 = true ∧ Appended buf (w buf).2 bits

variable {lengthHack : Bool}

theorem Appends.nil : Appends lengthHack (all []) [] := by
  intro buf _ _ _
  exact ⟨rfl, .refl buf⟩

/-- A field appends its low bits. -/
theorem Appends.field {n width : Nat} (hn : n ≤ 32)
    (hwidth : width = if n = 13 ∧ lengthHack then 16 else n) (value : UInt32) :
    Appends lengthHack (writeBitsSingle value n) (Bits.msb width value.toNat) := by
  intro buf hmode hsize hfit
  have hlen : buf.effectiveLen n = width := by
    unfold effectiveLen
    rw [hmode, hwidth]
  have hle := buf.effectiveLen_le hn
  rw [Bits.length_msb] at hfit
  unfold writeBitsSingle
  simp only [hlen]
  rw [if_neg (by omega)]
  refine ⟨rfl, ?_, rfl, rfl, length_scatter _ _ _ _, ?_⟩
  · rw [Bits.length_msb]
  · rw [bitsFrom_append, Nat.zero_add, bitsFrom_scatter_self value (by omega) (by omega),
      bitsFrom_scatter_before value (by omega) (by omega) 0 buf.curBit (by omega)]

/-- Two writers in sequence, however the sequence is written. -/
theorem Appends.two {w1 w2 w : BitW} {b1 b2 : List Bool} (h1 : Appends lengthHack w1 b1)
    (h2 : Appends lengthHack w2 b2)
    (hw : ∀ buf, (w1 buf).1 = true → w buf = w2 (w1 buf).2) :
    Appends lengthHack w (b1 ++ b2) := by
  intro buf hmode hsize hfit
  rw [List.length_append] at hfit
  obtain ⟨hok, happ⟩ := h1 buf hmode hsize (by omega)
  obtain ⟨hok', happ'⟩ := h2 (w1 buf).2 (happ.mode.trans hmode)
    (by rw [happ.bound, happ.size]; exact hsize) (by rw [happ.cursor, happ.bound]; omega)
  rw [hw buf hok]
  exact ⟨hok', happ.trans happ'⟩

theorem Appends.and {w1 w2 : BitW} {b1 b2 : List Bool} (h1 : Appends lengthHack w1 b1)
    (h2 : Appends lengthHack w2 b2) : Appends lengthHack (BitW.and w1 w2) (b1 ++ b2) := by
  refine h1.two h2 fun buf hok => ?_
  unfold BitW.and
  rcases h : w1 buf with ⟨ok, mid⟩
  rw [h] at hok
  rw [show ok = true from hok]

theorem Appends.seq {w1 w2 : BitW} {b1 b2 : List Bool} (h1 : Appends lengthHack w1 b1)
    (h2 : Appends lengthHack w2 b2) : Appends lengthHack (BitW.seq w1 w2) (b1 ++ b2) :=
  h1.two h2 fun _ _ => rfl

/-- Whether it succeeds or not, `w` leaves the size, the bound and the mode alone. -/
def KeepsShape (w : BitW) : Prop := ∀ buf,
  (w buf).2.maxBit = buf.maxBit ∧ (w buf).2.data.length = buf.data.length ∧
    (w buf).2.lengthHack = buf.lengthHack

theorem keepsShape_nil : KeepsShape (all []) := fun _ => ⟨rfl, rfl, rfl⟩

theorem keepsShape_field (value : UInt32) (n : Nat) : KeepsShape (writeBitsSingle value n) := by
  intro buf
  unfold writeBitsSingle
  simp only
  split
  · exact ⟨rfl, rfl, rfl⟩
  · exact ⟨rfl, length_scatter _ _ _ _, rfl⟩

theorem KeepsShape.seq {w1 w2 : BitW} (h1 : KeepsShape w1) (h2 : KeepsShape w2) :
    KeepsShape (BitW.seq w1 w2) := by
  intro buf
  obtain ⟨a1, a2, a3⟩ := h1 buf
  obtain ⟨b1, b2, b3⟩ := h2 (w1 buf).2
  exact ⟨b1.trans a1, b2.trans a2, b3.trans a3⟩

theorem KeepsShape.and {w1 w2 : BitW} (h1 : KeepsShape w1) (h2 : KeepsShape w2) :
    KeepsShape (BitW.and w1 w2) := by
  intro buf
  have hseq := h1.seq h2 buf
  have hone := h1 buf
  unfold BitW.seq at hseq
  unfold BitW.and
  rcases h : w1 buf with ⟨ok, mid⟩
  rw [h] at hseq hone
  cases ok with
  | true => exact hseq
  | false => exact hone

end BitW

/-! ### Reading known bits -/

namespace MessageBuffer

/-- The bits ahead of the cursor begin with `bits`, all within bounds. -/
structure Ahead (buf : MessageBuffer) (bits : List Bool) : Prop where
  bound : buf.curBit + bits.length ≤ buf.maxBit
  bits : bitsFrom buf.data buf.curBit bits.length = bits

/-- A field ahead of the cursor reads as its value, and the rest is ahead afterwards. -/
theorem Ahead.field {buf : MessageBuffer} {n width v : Nat} {rest : List Bool} (hn : n ≤ 32)
    (hwidth : buf.effectiveLen n = width) (h : buf.Ahead (Bits.msb width v ++ rest))
    (hv : v < 2 ^ width) :
    readBitsSingle n buf = (some (UInt32.ofNat v), { buf with curBit := buf.curBit + width }) ∧
      ({ buf with curBit := buf.curBit + width } : MessageBuffer).Ahead rest := by
  obtain ⟨hbound, hbits⟩ := h
  have hle := buf.effectiveLen_le hn
  rw [List.length_append, Bits.length_msb] at hbound hbits
  rw [bitsFrom_append] at hbits
  obtain ⟨hfield, hrest⟩ := List.append_inj hbits (by rw [length_bitsFrom, Bits.length_msb])
  have hval : gather buf.data buf.curBit width = UInt32.ofNat v := by
    apply UInt32.toNat.inj
    have hpow : 2 ^ width ≤ 2 ^ 32 := Nat.pow_le_pow_right (by decide) (by omega)
    rw [gather_toNat _ _ _ (by omega), hfield, Bits.value_msb, Nat.mod_eq_of_lt hv,
      UInt32.toNat_ofNat', Nat.mod_eq_of_lt (by omega)]
  refine ⟨?_, ⟨by simp only; omega, hrest⟩⟩
  unfold readBitsSingle
  simp only [hwidth]
  rw [if_neg (by omega), hval]

/-- A record type ahead of the cursor is read first. -/
theorem readType_ahead {buf : MessageBuffer} {ty : UInt32} {rest : List Bool}
    (hty : ty.toNat < 8) (h : buf.Ahead (Bits.msb 3 ty.toNat ++ rest)) :
    (BitM.bits 3).run buf = (some ty, { buf with curBit := buf.curBit + 3 }) ∧
      ({ buf with curBit := buf.curBit + 3 } : MessageBuffer).Ahead rest := by
  obtain ⟨hread, hrest⟩ := h.field (by decide) (effectiveLen_plain _ (by decide)) hty
  rw [UInt32.ofNat_toNat] at hread
  exact ⟨hread, hrest⟩

theorem toUInt16_ofNat (x : UInt16) : (UInt32.ofNat x.toNat).toUInt16 = x := by
  apply UInt16.toNat.inj
  have := x.toNat_lt
  rw [UInt32.toNat_toUInt16, UInt32.toNat_ofNat']
  omega

end MessageBuffer

/-! ### Readers that may fail -/

namespace BitM

open MessageBuffer

theorem run_bind {α β : Type} (m : BitM α) (f : α → BitM β) (buf : MessageBuffer) :
    (m >>= f).run buf
      = match m.run buf with
        | (some a, mid) => (f a).run mid
        | (none, mid) => (none, mid) := by
  rw [OptionT.run_bind, Option.elimM]
  show (fun r : Option α × MessageBuffer =>
    (r.1.elim (pure none : StateM MessageBuffer (Option β)) fun a => (f a).run) r.2)
      (m.run buf) = _
  rcases m.run buf with ⟨_ | a, mid⟩
  · rfl
  · rfl

/-- A sequence of reads succeeds by succeeding twice. -/
theorem bind_eq_some {α β : Type} {m : BitM α} {f : α → BitM β} {buf buf' : MessageBuffer}
    {b : β} (h : (m >>= f).run buf = (some b, buf')) :
    ∃ a mid, m.run buf = (some a, mid) ∧ (f a).run mid = (some b, buf') := by
  rw [run_bind] at h
  rcases hm : m.run buf with ⟨_ | a, mid⟩
  · rw [hm] at h
    exact absurd (congrArg Prod.fst h) (by simp)
  · rw [hm] at h
    exact ⟨a, mid, rfl, h⟩

theorem run_pure {α : Type} (a : α) (buf : MessageBuffer) :
    (pure a : BitM α).run buf = (some a, buf) := rfl

/-- A field that was read is no wider than its effective length. -/
theorem bits_lt {n : Nat} (hn : n ≤ 32) {buf buf' : MessageBuffer} {v : UInt32}
    (h : (bits n).run buf = (some v, buf')) : v.toNat < 2 ^ buf.effectiveLen n := by
  have hlen := buf.effectiveLen_le hn
  replace h : readBitsSingle n buf = (some v, buf') := h
  unfold readBitsSingle at h
  simp only at h
  split at h
  · exact absurd (congrArg Prod.fst h) (by simp)
  · obtain ⟨hv, -⟩ := Prod.mk.inj h
    rw [← Option.some.inj hv, gather_toNat _ _ _ hlen]
    have := Bits.value_lt (bitsFrom buf.data buf.curBit (buf.effectiveLen n))
    rwa [length_bitsFrom] at this

theorem bits_bound {n : Nat} {buf buf' : MessageBuffer} {v : UInt32}
    (h : (bits n).run buf = (some v, buf')) :
    buf.curBit + buf.effectiveLen n ≤ buf.maxBit ∧
      buf' = { buf with curBit := buf.curBit + buf.effectiveLen n } := by
  replace h : readBitsSingle n buf = (some v, buf') := h
  unfold readBitsSingle at h
  simp only at h
  split at h
  · exact absurd (congrArg Prod.fst h) (by simp)
  · obtain ⟨-, rfl⟩ := Prod.mk.inj h
    exact ⟨by omega, rfl⟩

/-- Readers never switch the length hack. -/
def KeepsMode {α : Type} (m : BitM α) : Prop :=
  ∀ buf, (m.run buf).2.lengthHack = buf.lengthHack

theorem KeepsMode.bind {α β : Type} {m : BitM α} {f : α → BitM β} (hm : KeepsMode m)
    (hf : ∀ a, KeepsMode (f a)) : KeepsMode (m >>= f) := by
  intro buf
  rw [run_bind]
  have hbuf := hm buf
  rcases h : m.run buf with ⟨_ | a, mid⟩
  · rw [h] at hbuf
    exact hbuf
  · rw [h] at hbuf
    rw [← hbuf]
    exact hf a mid

theorem keepsMode_pure {α : Type} (a : α) : KeepsMode (pure a : BitM α) := fun _ => rfl

theorem keepsMode_failure {α : Type} : KeepsMode (failure : BitM α) := fun _ => rfl

theorem keepsMode_bits (n : Nat) : KeepsMode (bits n) := by
  intro buf
  show (readBitsSingle n buf).2.lengthHack = buf.lengthHack
  unfold readBitsSingle
  simp only
  split
  · rfl
  · rfl

theorem keepsMode_bytes (size n : Nat) : KeepsMode (bytes size n) := by
  intro buf
  show (readBits size n buf).2.lengthHack = buf.lengthHack
  unfold readBits
  split
  · rfl
  · split
    · rfl
    · rfl

end BitM

end Baston.Rage
