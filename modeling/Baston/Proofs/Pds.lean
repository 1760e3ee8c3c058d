/-
The numbers of variable length, read and written.

The forms of an unsigned number differ in two things: how many bytes follow the first, and what
the first one contributes to the value.  Both are a function of the first byte, so one equation
describes the reader on all of them, and the writer is one that picks the first byte and lets the
others follow.
-/
import Baston.Voice.Packet
import Baston.Lib.Bits

namespace Baston.Voice

/-! ### Digits -/

/-- Bytes after a number, the highest first. -/
def appendBytes (top : Nat) (bytes : List UInt8) : Nat :=
  bytes.foldl (fun v b => v * 256 + b.toNat) top

theorem appendBytes_lt (bytes : List UInt8) :
    ∀ top, appendBytes top bytes < (top + 1) * 256 ^ bytes.length := by
  induction bytes with
  | nil =>
      intro top
      show top < (top + 1) * 1
      omega
  | cons b rest ih =>
      intro top
      have h := ih (top * 256 + b.toNat)
      have hb := b.toNat_lt
      calc appendBytes top (b :: rest)
          < (top * 256 + b.toNat + 1) * 256 ^ rest.length := h
        _ ≤ ((top + 1) * 256) * 256 ^ rest.length := Nat.mul_le_mul_right _ (by omega)
        _ = (top + 1) * 256 ^ (rest.length + 1) := by ring

/-- A byte shifted in at the low end. -/
theorem shift_or_byte {v b : Nat} (hb : b < 256) : (v <<< 8) ||| b = v * 256 + b := by
  rw [← Nat.shiftLeft_add_eq_or_of_lt (by omega), Nat.shiftLeft_eq]

/-- Room for `n + 1` more bytes is room for one, and for `n` behind it. -/
theorem room_step {v b n top : Nat} (hb : b < 256) (hroom : (v + 1) * 256 ^ (n + 1) ≤ top) :
    v * 256 + 256 ≤ top ∧ (v * 256 + b + 1) * 256 ^ n ≤ top := by
  have hpow : 0 < 256 ^ n := Nat.pow_pos (by omega)
  have heq : (v * 256 + 256) * 256 ^ n = (v + 1) * 256 ^ (n + 1) := by ring
  constructor
  · calc v * 256 + 256 = (v * 256 + 256) * 1 := (Nat.mul_one _).symm
      _ ≤ (v * 256 + 256) * 256 ^ n := Nat.mul_le_mul_left _ hpow
      _ ≤ top := heq ▸ hroom
  · calc (v * 256 + b + 1) * 256 ^ n
        ≤ (v * 256 + 256) * 256 ^ n := Nat.mul_le_mul_right _ (by omega)
      _ ≤ top := heq ▸ hroom

/-! ### The first byte -/

/-- How many bytes follow the first of an unsigned number, and what it is worth. -/
def lead (b : UInt8) : Nat × Nat :=
  if b.toNat < 0x80 then (0, b.toNat)
  else if b.toNat < 0xC0 then (1, b.toNat - 0x80)
  else if b.toNat < 0xE0 then (2, b.toNat - 0xC0)
  else if b.toNat < 0xF0 then (3, b.toNat - 0xE0)
  else if b.toNat < 0xF4 then (4, 0)
  else (8, 0)

/-- The first byte begins one of the unsigned forms. -/
def Unsigned (b : UInt8) : Prop := b.toNat < 0xF8

/-- The numbers below which `extra` bytes behind the first are enough. -/
def capacity : Nat → Nat
  | 0 => 0x80
  | 1 => 0x4000
  | 2 => 0x200000
  | 3 => 0x10000000
  | 4 => 0x100000000
  | _ => 2 ^ 64

theorem capacity_mono {n m : Nat} (h : n ≤ m) : capacity n ≤ capacity m := by
  refine monotone_nat_of_le_succ (fun k => ?_) h
  match k with
  | 0 | 1 | 2 | 3 | 4 | _ + 5 => simp [capacity]

/-- What the masks of the reader say of a byte, and what they leave of it. -/
structure Masked (b : UInt8) : Prop where
  one : b.toUInt64 &&& 0x80 = 0 ↔ b.toNat < 0x80
  two : b.toUInt64 &&& 0xC0 = 0x80 ↔ 0x80 ≤ b.toNat ∧ b.toNat < 0xC0
  three : b.toUInt64 &&& 0xE0 = 0xC0 ↔ 0xC0 ≤ b.toNat ∧ b.toNat < 0xE0
  four : b.toUInt64 &&& 0xF0 = 0xE0 ↔ 0xE0 ≤ b.toNat ∧ b.toNat < 0xF0
  full32 : b.toUInt64 &&& 0xFC = 0xF0 ↔ 0xF0 ≤ b.toNat ∧ b.toNat < 0xF4
  full64 : b.toUInt64 &&& 0xFC = 0xF4 ↔ 0xF4 ≤ b.toNat ∧ b.toNat < 0xF8
  negative : b.toUInt64 &&& 0xFC = 0xF8 ↔ 0xF8 ≤ b.toNat ∧ b.toNat < 0xFC
  low6 : (b.toUInt64 &&& 0x3F).toNat = b.toNat % 0x40
  low5 : (b.toUInt64 &&& 0x1F).toNat = b.toNat % 0x20
  low4 : (b.toUInt64 &&& 0x0F).toNat = b.toNat % 0x10

theorem masked (b : UInt8) : Masked b := by
  have h : ∀ n : Fin 256, Masked (UInt8.ofNat n) := by
    intro n
    constructor <;> revert n <;> decide +kernel
  have hb := h ⟨b.toNat, b.toNat_lt⟩
  rw [UInt8.ofNat_toNat] at hb
  exact hb

namespace PdsReader

theorem toNat_shift_or {v : UInt64} {b : UInt8} (h : v.toNat * 256 + 256 ≤ 2 ^ 64) :
    ((v <<< 8) ||| b.toUInt64).toNat = v.toNat * 256 + b.toNat := by
  have hb : b.toNat < 256 := b.toNat_lt
  have h8 : (8 : UInt64).toNat % 64 = 8 := rfl
  rw [UInt64.toNat_or, UInt64.toNat_shiftLeft, UInt8.toNat_toUInt64, h8,
    Nat.mod_eq_of_lt (by rw [Nat.shiftLeft_eq]; omega), shift_or_byte hb]

/-- The loop of the full forms, as long as no byte is shifted out at the high end. -/
theorem nextBytes_eq (n : Nat) : ∀ (v : UInt64) (r : PdsReader),
    (v.toNat + 1) * 256 ^ n ≤ 2 ^ 64 →
    nextBytes n v r = if n ≤ r.length
      then some (UInt64.ofNat (appendBytes v.toNat (r.take n)), r.drop n) else none := by
  induction n with
  | zero =>
      intro v r _
      rw [if_pos (Nat.zero_le _)]
      show some (v, r) = some (UInt64.ofNat v.toNat, r)
      rw [UInt64.ofNat_toNat]
  | succ n ih =>
      intro v r hroom
      cases r with
      | nil => rfl
      | cons b rest =>
          obtain ⟨hsmall, hroom'⟩ := room_step b.toNat_lt hroom
          have hnext := toNat_shift_or (b := b) hsmall
          show nextBytes n ((v <<< 8) ||| b.toUInt64) rest = _
          rw [ih _ _ (by rw [hnext]; exact hroom'), hnext]
          simp only [List.length_cons, Nat.add_le_add_iff_right, List.take_succ_cons,
            List.drop_succ_cons]
          rfl

/-! ### One equation for the unsigned forms -/

theorem shiftLeft_eight (v : UInt64) : v <<< 8 <<< 8 = v <<< 16 := by
  rw [← UInt64.shiftLeft_add (by decide) (by decide) (by decide)]
  rfl

theorem shiftLeft_sixteen (v : UInt64) : v <<< 8 <<< 16 = v <<< 24 := by
  rw [← UInt64.shiftLeft_add (by decide) (by decide) (by decide)]
  rfl

/-- The short forms read as the loop of the full ones does. -/
theorem nextBytes_two (v : UInt64) (r : PdsReader) :
    nextBytes 2 v r = do
      let (b1, r) ← nextByte r
      let (b2, r) ← nextByte r
      return ((v <<< 16) ||| (b1.toUInt64 <<< 8) ||| b2.toUInt64, r) := by
  match r with
  | [] => rfl
  | [_] => rfl
  | b1 :: b2 :: rest =>
      show some (((v <<< 8) ||| b1.toUInt64) <<< 8 ||| b2.toUInt64, rest) = _
      rw [UInt64.shiftLeft_or, shiftLeft_eight]
      rfl

theorem nextBytes_three (v : UInt64) (r : PdsReader) :
    nextBytes 3 v r = do
      let (b1, r) ← nextByte r
      let (b2, r) ← nextByte r
      let (b3, r) ← nextByte r
      return ((v <<< 24) ||| (b1.toUInt64 <<< 16) ||| (b2.toUInt64 <<< 8) ||| b3.toUInt64, r) := by
  match r with
  | [] => rfl
  | [_] => rfl
  | [_, _] => rfl
  | b1 :: b2 :: b3 :: rest =>
      show some ((((v <<< 8) ||| b1.toUInt64) <<< 8 ||| b2.toUInt64) <<< 8 ||| b3.toUInt64,
        rest) = _
      rw [UInt64.shiftLeft_or, UInt64.shiftLeft_or, UInt64.shiftLeft_or, shiftLeft_eight,
        shiftLeft_eight, shiftLeft_sixteen]
      rfl

theorem lead_value {b : UInt8} {v : UInt64} {extra top : Nat} (h : lead b = (extra, top))
    (hv : v.toNat = top) : UInt64.ofNat (lead b).2 = v := by
  rw [h, ← hv, UInt64.ofNat_toNat]

/-- How the reader goes on after the first byte of an unsigned number. -/
theorem readU64_unsigned {b : UInt8} (h : Unsigned b) (r : PdsReader) :
    readU64 (b :: r) = nextBytes (lead b).1 (UInt64.ofNat (lead b).2) r := by
  have m := masked b
  unfold Unsigned at h
  rw [readU64]
  by_cases h1 : b.toNat < 0x80
  · have hl : lead b = (0, b.toNat) := if_pos h1
    rw [if_pos (m.one.mpr h1), lead_value (v := b.toUInt64) hl (UInt8.toNat_toUInt64 b), hl]
    rfl
  rw [if_neg (mt m.one.mp h1)]
  by_cases h2 : b.toNat < 0xC0
  · have hl : lead b = (1, b.toNat - 0x80) := by rw [lead, if_neg h1, if_pos h2]
    rw [if_pos (m.two.mpr ⟨by omega, h2⟩),
      lead_value (v := b.toUInt64 &&& 0x3F) hl (by rw [m.low6]; omega), hl]
    rfl
  rw [if_neg (fun hc => h2 (m.two.mp hc).2)]
  by_cases h3 : b.toNat < 0xE0
  · have hl : lead b = (2, b.toNat - 0xC0) := by rw [lead, if_neg h1, if_neg h2, if_pos h3]
    rw [if_pos (m.three.mpr ⟨by omega, h3⟩),
      lead_value (v := b.toUInt64 &&& 0x1F) hl (by rw [m.low5]; omega), hl]
    exact (nextBytes_two _ r).symm
  rw [if_neg (fun hc => h3 (m.three.mp hc).2)]
  by_cases h4 : b.toNat < 0xF0
  · have hl : lead b = (3, b.toNat - 0xE0) := by
      rw [lead, if_neg h1, if_neg h2, if_neg h3, if_pos h4]
    rw [if_pos (m.four.mpr ⟨by omega, h4⟩),
      lead_value (v := b.toUInt64 &&& 0x0F) hl (by rw [m.low4]; omega), hl]
    exact (nextBytes_three _ r).symm
  rw [if_neg (fun hc => h4 (m.four.mp hc).2)]
  by_cases h5 : b.toNat < 0xF4
  · have hl : lead b = (4, 0) := by
      rw [lead, if_neg h1, if_neg h2, if_neg h3, if_neg h4, if_pos h5]
    rw [if_pos (m.full32.mpr ⟨by omega, h5⟩), hl]
    rfl
  · have hl : lead b = (8, 0) := by
      rw [lead, if_neg h1, if_neg h2, if_neg h3, if_neg h4, if_neg h5]
    rw [if_neg (fun hc => h5 (m.full32.mp hc).2), if_pos (m.full64.mpr ⟨by omega, h⟩), hl]
    rfl

/-- No more bytes follow than there is room for above what the first one is worth. -/
theorem lead_room {b : UInt8} (h : Unsigned b) :
    ((lead b).2 + 1) * 256 ^ (lead b).1 ≤ capacity (lead b).1 := by
  unfold Unsigned at h
  have hb : b.toNat < 256 := b.toNat_lt
  unfold lead
  split_ifs <;> simp only [capacity, pow_zero] <;> omega

theorem capacity_le (extra : Nat) : capacity extra ≤ 2 ^ 64 := by
  unfold capacity
  split <;> decide

/-- An unsigned number is what its first byte is worth, and the bytes behind it. -/
theorem readU64_form {b : UInt8} (h : Unsigned b) (r : PdsReader) :
    readU64 (b :: r) = if (lead b).1 ≤ r.length
      then some (UInt64.ofNat (appendBytes (lead b).2 (r.take (lead b).1)), r.drop (lead b).1)
      else none := by
  have hroom := (lead_room h).trans (capacity_le _)
  have htop : (UInt64.ofNat (lead b).2).toNat = (lead b).2 := by
    refine UInt64.toNat_ofNat_of_lt' ?_
    have hpow : 0 < 256 ^ (lead b).1 := Nat.pow_pos (by omega)
    exact lt_of_lt_of_le (Nat.lt_of_succ_le (Nat.le_mul_of_pos_right _ hpow)) hroom
  rw [readU64_unsigned h, nextBytes_eq _ _ _ (by rw [htop]; exact hroom), htop]

/-- What an unsigned form of so many bytes can spell. -/
theorem readU64_lt {b : UInt8} (h : Unsigned b) {r r' : PdsReader} {v : UInt64}
    (hread : readU64 (b :: r) = some (v, r')) :
    r.length = (lead b).1 + r'.length ∧ v.toNat < capacity (lead b).1 := by
  rw [readU64_form h] at hread
  by_cases hlen : (lead b).1 ≤ r.length
  · rw [if_pos hlen] at hread
    obtain ⟨rfl, rfl⟩ := Prod.mk.inj (Option.some.inj hread)
    have hlt := appendBytes_lt (r.take (lead b).1) (lead b).2
    rw [List.length_take, Nat.min_eq_left hlen] at hlt
    constructor
    · rw [List.length_drop]
      omega
    · rw [UInt64.toNat_ofNat']
      exact lt_of_le_of_lt (Nat.mod_le _ _) (lt_of_lt_of_le hlt (lead_room h))
  · rw [if_neg hlen] at hread
    cases hread

/-- A negative number: nothing more of the unsigned forms applies. -/
theorem readU64_signed {b : UInt8} (h : ¬ Unsigned b) (r : PdsReader) :
    readU64 (b :: r) = if b.toNat < 0xFC
      then (readU64 r).map fun p => (0, p.2)
      else some (0 - ((b.toUInt64 &&& 0x03) + 1), r) := by
  have m := masked b
  unfold Unsigned at h
  have hb : b.toNat < 256 := b.toNat_lt
  have h1 : ¬ b.toUInt64 &&& 0x80 = 0 := fun hc => by have := m.one.mp hc; omega
  have h2 : ¬ b.toUInt64 &&& 0xC0 = 0x80 := fun hc => by have := m.two.mp hc; omega
  have h3 : ¬ b.toUInt64 &&& 0xE0 = 0xC0 := fun hc => by have := m.three.mp hc; omega
  have h4 : ¬ b.toUInt64 &&& 0xF0 = 0xE0 := fun hc => by have := m.four.mp hc; omega
  have h5 : ¬ b.toUInt64 &&& 0xFC = 0xF0 := fun hc => by have := m.full32.mp hc; omega
  have h6 : ¬ b.toUInt64 &&& 0xFC = 0xF4 := fun hc => by have := m.full64.mp hc; omega
  rw [readU64, if_neg h1, if_neg h2, if_neg h3, if_neg h4, if_neg h5, if_neg h6]
  by_cases h7 : b.toNat < 0xFC
  · rw [if_pos (m.negative.mpr ⟨by omega, h7⟩), if_pos h7]
    cases readU64 r with
    | none => rfl
    | some p => rfl
  · rw [if_neg (fun hc => h7 (m.negative.mp hc).2), if_neg h7]

/-! ### What a number takes -/

/-- A number is read off some bytes of its own, whatever comes behind them. -/
theorem readU64_spec (r : PdsReader) : ∀ (v : UInt64) (r' : PdsReader),
    readU64 r = some (v, r') →
      ∃ used, used ≠ [] ∧ r = used ++ r' ∧ ∀ more, readU64 (used ++ more) = some (v, more) := by
  induction r with
  | nil =>
      intro v r' h
      cases h
  | cons b rest ih =>
      intro v r' h
      by_cases hb : Unsigned b
      · have hform := h
        rw [readU64_form hb] at hform
        obtain ⟨hlen, -⟩ := readU64_lt hb h
        have hle : (lead b).1 ≤ rest.length := by omega
        rw [if_pos hle] at hform
        obtain ⟨rfl, rfl⟩ := Prod.mk.inj (Option.some.inj hform)
        have htake : (rest.take (lead b).1).length = (lead b).1 := List.length_take_of_le hle
        refine ⟨b :: rest.take (lead b).1, List.cons_ne_nil _ _, ?_, ?_⟩
        · rw [List.cons_append, List.take_append_drop]
        · intro more
          rw [List.cons_append, readU64_form hb, if_pos (by rw [List.length_append]; omega),
            List.take_left' htake, List.drop_left' htake]
      · rw [readU64_signed hb] at h
        by_cases hsmall : b.toNat < 0xFC
        · rw [if_pos hsmall] at h
          obtain ⟨⟨w, r''⟩, hread, heq⟩ := Option.map_eq_some_iff.mp h
          obtain ⟨rfl, rfl⟩ := Prod.mk.inj heq
          obtain ⟨used, -, rfl, hused⟩ := ih w r'' hread
          refine ⟨b :: used, List.cons_ne_nil _ _, rfl, ?_⟩
          intro more
          rw [List.cons_append, readU64_signed hb, if_pos hsmall, hused]
          rfl
        · rw [if_neg hsmall] at h
          obtain ⟨rfl, rfl⟩ := Prod.mk.inj (Option.some.inj h)
          refine ⟨[b], List.cons_ne_nil _ _, rfl, ?_⟩
          intro more
          rw [List.singleton_append, readU64_signed hb, if_neg hsmall]

end PdsReader

/-! ### The writer -/

theorem toNat_prefix {p x : UInt8} (a i : Nat) (hp : p.toNat = a <<< i) (hx : x.toNat < 2 ^ i) :
    (p ||| x).toNat = p.toNat + x.toNat := by
  rw [UInt8.toNat_or, hp, Nat.shiftLeft_add_eq_or_of_lt hx]

theorem toNat_byte (v s : UInt64) (hs : s.toNat < 64) :
    (v >>> s).toUInt8.toNat = v.toNat / 2 ^ s.toNat % 256 := by
  rw [UInt64.toNat_toUInt8, UInt64.toNat_shiftRight, Nat.mod_eq_of_lt hs,
    Nat.shiftRight_eq_div_pow]

theorem toNat_lowByte (v : UInt64) : (v &&& 0xFF).toUInt8.toNat = v.toNat % 256 := by
  have hmask : (0xFF : UInt64).toNat = 2 ^ 8 - 1 := rfl
  rw [UInt64.toNat_toUInt8, UInt64.toNat_and, hmask, Nat.and_two_pow_sub_one_eq_mod]
  omega

/-- What the writer puts down for a number: a form that holds it, and none that is shorter. -/
structure Written (v : UInt64) (b : UInt8) (tail : List UInt8) : Prop where
  unsigned : Unsigned b
  width : tail.length = (lead b).1
  value : appendBytes (lead b).2 tail = v.toNat
  needed : ∀ n ≤ 4, n < (lead b).1 → capacity n ≤ v.toNat

theorem lead_two {b : UInt8} {top : Nat} (hb : b.toNat = 0x80 + top) (h : top < 0x40) :
    lead b = (1, top) := by
  rw [lead, if_neg (by omega), if_pos (by omega), hb, Nat.add_sub_cancel_left]

theorem lead_three {b : UInt8} {top : Nat} (hb : b.toNat = 0xC0 + top) (h : top < 0x20) :
    lead b = (2, top) := by
  rw [lead, if_neg (by omega), if_neg (by omega), if_pos (by omega), hb, Nat.add_sub_cancel_left]

theorem lead_four {b : UInt8} {top : Nat} (hb : b.toNat = 0xE0 + top) (h : top < 0x10) :
    lead b = (3, top) := by
  rw [lead, if_neg (by omega), if_neg (by omega), if_neg (by omega), if_pos (by omega), hb,
    Nat.add_sub_cancel_left]

/-- A form by what its first byte means. -/
theorem Written.of_lead {v : UInt64} {b : UInt8} {tail : List UInt8} {extra top : Nat}
    (hlead : lead b = (extra, top)) (hb : Unsigned b) (hwidth : tail.length = extra)
    (hvalue : appendBytes top tail = v.toNat)
    (hneeded : ∀ n ≤ 4, n < extra → capacity n ≤ v.toNat) : Written v b tail := by
  refine ⟨hb, ?_, ?_, ?_⟩
  · rw [hlead]
    exact hwidth
  · rw [hlead]
    exact hvalue
  · rw [hlead]
    exact hneeded

theorem written_one {v : UInt64} (h : v.toNat < 0x80) : Written v v.toUInt8 [] := by
  have hb : v.toUInt8.toNat = v.toNat := by
    rw [UInt64.toNat_toUInt8]
    omega
  have hlead : lead v.toUInt8 = (0, v.toNat) := by
    rw [lead, hb, if_pos h]
  have hform : Unsigned v.toUInt8 := by
    unfold Unsigned
    omega
  exact .of_lead hlead hform rfl rfl (fun n _ hn => absurd hn (Nat.not_lt_zero n))

theorem written_two {v : UInt64} (hlow : capacity 0 ≤ v.toNat) (h : v.toNat < 0x4000) :
    Written v ((0x80 : UInt8) ||| (v >>> 8).toUInt8) [(v &&& 0xFF).toUInt8] := by
  have h8 : (v >>> 8).toUInt8.toNat = v.toNat / 2 ^ 8 % 256 := toNat_byte v 8 (by decide)
  have hb := toNat_prefix (x := (v >>> 8).toUInt8) 2 6 (show (0x80 : UInt8).toNat = _ from rfl)
    (by omega)
  have hform : Unsigned ((0x80 : UInt8) ||| (v >>> 8).toUInt8) := by
    unfold Unsigned
    rw [hb]
    show 0x80 + _ < 0xF8
    omega
  refine .of_lead (lead_two hb (by omega)) hform rfl ?_
    (fun n _ hn => (capacity_mono (Nat.le_of_lt_succ hn)).trans hlow)
  show (v >>> 8).toUInt8.toNat * 256 + (v &&& 0xFF).toUInt8.toNat = v.toNat
  rw [h8, toNat_lowByte]
  omega

theorem written_three {v : UInt64} (hlow : capacity 1 ≤ v.toNat) (h : v.toNat < 0x200000) :
    Written v ((0xC0 : UInt8) ||| (v >>> 16).toUInt8)
      [(v >>> 8).toUInt8, (v &&& 0xFF).toUInt8] := by
  have h16 : (v >>> 16).toUInt8.toNat = v.toNat / 2 ^ 16 % 256 := toNat_byte v 16 (by decide)
  have h8 : (v >>> 8).toUInt8.toNat = v.toNat / 2 ^ 8 % 256 := toNat_byte v 8 (by decide)
  have hb := toNat_prefix (x := (v >>> 16).toUInt8) 6 5 (show (0xC0 : UInt8).toNat = _ from rfl)
    (by omega)
  have hform : Unsigned ((0xC0 : UInt8) ||| (v >>> 16).toUInt8) := by
    unfold Unsigned
    rw [hb]
    show 0xC0 + _ < 0xF8
    omega
  refine .of_lead (lead_three hb (by omega)) hform rfl ?_
    (fun n _ hn => (capacity_mono (Nat.le_of_lt_succ hn)).trans hlow)
  show ((v >>> 16).toUInt8.toNat * 256 + (v >>> 8).toUInt8.toNat) * 256
    + (v &&& 0xFF).toUInt8.toNat = v.toNat
  rw [h16, h8, toNat_lowByte]
  omega

theorem written_four {v : UInt64} (hlow : capacity 2 ≤ v.toNat) (h : v.toNat < 0x10000000) :
    Written v ((0xE0 : UInt8) ||| (v >>> 24).toUInt8)
      [(v >>> 16).toUInt8, (v >>> 8).toUInt8, (v &&& 0xFF).toUInt8] := by
  have h24 : (v >>> 24).toUInt8.toNat = v.toNat / 2 ^ 24 % 256 := toNat_byte v 24 (by decide)
  have h16 : (v >>> 16).toUInt8.toNat = v.toNat / 2 ^ 16 % 256 := toNat_byte v 16 (by decide)
  have h8 : (v >>> 8).toUInt8.toNat = v.toNat / 2 ^ 8 % 256 := toNat_byte v 8 (by decide)
  have hb := toNat_prefix (x := (v >>> 24).toUInt8) 14 4 (show (0xE0 : UInt8).toNat = _ from rfl)
    (by omega)
  have hform : Unsigned ((0xE0 : UInt8) ||| (v >>> 24).toUInt8) := by
    unfold Unsigned
    rw [hb]
    show 0xE0 + _ < 0xF8
    omega
  refine .of_lead (lead_four hb (by omega)) hform rfl ?_
    (fun n _ hn => (capacity_mono (Nat.le_of_lt_succ hn)).trans hlow)
  show (((v >>> 24).toUInt8.toNat * 256 + (v >>> 16).toUInt8.toNat) * 256
    + (v >>> 8).toUInt8.toNat) * 256 + (v &&& 0xFF).toUInt8.toNat = v.toNat
  rw [h24, h16, h8, toNat_lowByte]
  omega

theorem toNat_byte32 (v : UInt64) (s : UInt32) (hs : s.toNat < 32) :
    (v.toUInt32 >>> s).toUInt8.toNat = v.toNat % 2 ^ 32 / 2 ^ s.toNat % 256 := by
  rw [UInt32.toNat_toUInt8, UInt32.toNat_shiftRight, Nat.mod_eq_of_lt hs,
    Nat.shiftRight_eq_div_pow, UInt64.toNat_toUInt32]

theorem written_full32 {v : UInt64} (hlow : capacity 3 ≤ v.toNat) (h : v.toNat < 0x100000000) :
    Written v 0xF0 (beBytes32 v.toUInt32) := by
  have h24 : (v.toUInt32 >>> 24).toUInt8.toNat = v.toNat % 2 ^ 32 / 2 ^ 24 % 256 :=
    toNat_byte32 v 24 (by decide)
  have h16 : (v.toUInt32 >>> 16).toUInt8.toNat = v.toNat % 2 ^ 32 / 2 ^ 16 % 256 :=
    toNat_byte32 v 16 (by decide)
  have h8 : (v.toUInt32 >>> 8).toUInt8.toNat = v.toNat % 2 ^ 32 / 2 ^ 8 % 256 :=
    toNat_byte32 v 8 (by decide)
  have h0 : (v.toUInt32 >>> 0).toUInt8.toNat = v.toNat % 2 ^ 32 / 2 ^ 0 % 256 :=
    toNat_byte32 v 0 (by decide)
  refine .of_lead rfl (show 0xF0 < 0xF8 by decide) rfl ?_
    (fun n _ hn => (capacity_mono (Nat.le_of_lt_succ hn)).trans hlow)
  show (((0 * 256 + (v.toUInt32 >>> 24).toUInt8.toNat) * 256
    + (v.toUInt32 >>> 16).toUInt8.toNat) * 256 + (v.toUInt32 >>> 8).toUInt8.toNat) * 256
    + (v.toUInt32 >>> 0).toUInt8.toNat = v.toNat
  rw [h24, h16, h8, h0]
  omega

/-- The bytes of a number that begin at these bits. -/
def bytesAt (v : UInt64) (shifts : List UInt64) : List UInt8 :=
  shifts.map fun s => (v >>> s).toUInt8

/-- Four bytes of a number, taken from bit `s` up. -/
theorem four_bytes (v : UInt64) (s3 s2 s1 s0 : UInt64) (top s : Nat)
    (h : s3.toNat = s + 24 ∧ s2.toNat = s + 16 ∧ s1.toNat = s + 8 ∧ s0.toNat = s) (hs : s ≤ 32) :
    appendBytes top (bytesAt v [s3, s2, s1, s0])
      = top * 2 ^ 32 + v.toNat / 2 ^ s % 2 ^ 32 := by
  obtain ⟨h3, h2, h1, h0⟩ := h
  have e3 := toNat_byte v s3 (by omega)
  have e2 := toNat_byte v s2 (by omega)
  have e1 := toNat_byte v s1 (by omega)
  have e0 := toNat_byte v s0 (by omega)
  rw [h3, pow_add, ← Nat.div_div_eq_div_mul] at e3
  rw [h2, pow_add, ← Nat.div_div_eq_div_mul] at e2
  rw [h1, pow_add, ← Nat.div_div_eq_div_mul] at e1
  rw [h0] at e0
  show (((top * 256 + (v >>> s3).toUInt8.toNat) * 256 + (v >>> s2).toUInt8.toNat) * 256
    + (v >>> s1).toUInt8.toNat) * 256 + (v >>> s0).toUInt8.toNat = _
  rw [e3, e2, e1, e0]
  omega

theorem written_full64 {v : UInt64} (hlow : capacity 4 ≤ v.toNat) :
    Written v 0xF4 (Ocb2.beBytes v) := by
  have hv : v.toNat < 2 ^ 64 := v.toNat_lt
  refine .of_lead rfl (show 0xF4 < 0xF8 by decide) rfl ?_
    (fun n hn _ => (capacity_mono hn).trans hlow)
  have hhigh := four_bytes v 56 48 40 32 0 32 (by decide) (by omega)
  have hrest := four_bytes v 24 16 8 0 (appendBytes 0 (bytesAt v [56, 48, 40, 32])) 0 (by decide)
    (by omega)
  have hsplit : Ocb2.beBytes v = bytesAt v [56, 48, 40, 32] ++ bytesAt v [24, 16, 8, 0] := rfl
  calc appendBytes 0 (Ocb2.beBytes v)
      = appendBytes (appendBytes 0 (bytesAt v [56, 48, 40, 32])) (bytesAt v [24, 16, 8, 0]) := by
        rw [hsplit]
        exact List.foldl_append
    _ = (0 * 2 ^ 32 + v.toNat / 2 ^ 32 % 2 ^ 32) * 2 ^ 32 + v.toNat / 2 ^ 0 % 2 ^ 32 := by
        rw [hrest, hhigh]
    _ = v.toNat := by omega

theorem writeU64_written (v : UInt64) : ∃ b tail, writeU64 v = b :: tail ∧ Written v b tail := by
  unfold writeU64
  by_cases h1 : v.toNat < 0x80
  · exact ⟨_, _, if_pos (UInt64.lt_iff_toNat_lt.mpr h1), written_one h1⟩
  rw [if_neg (mt UInt64.lt_iff_toNat_lt.mp h1)]
  by_cases h2 : v.toNat < 0x4000
  · exact ⟨_, _, if_pos (UInt64.lt_iff_toNat_lt.mpr h2), written_two (Nat.le_of_not_lt h1) h2⟩
  rw [if_neg (mt UInt64.lt_iff_toNat_lt.mp h2)]
  by_cases h3 : v.toNat < 0x200000
  · exact ⟨_, _, if_pos (UInt64.lt_iff_toNat_lt.mpr h3), written_three (Nat.le_of_not_lt h2) h3⟩
  rw [if_neg (mt UInt64.lt_iff_toNat_lt.mp h3)]
  by_cases h4 : v.toNat < 0x10000000
  · exact ⟨_, _, if_pos (UInt64.lt_iff_toNat_lt.mpr h4), written_four (Nat.le_of_not_lt h3) h4⟩
  rw [if_neg (mt UInt64.lt_iff_toNat_lt.mp h4)]
  by_cases h5 : v.toNat < 0x100000000
  · exact ⟨_, _, if_pos (UInt64.lt_iff_toNat_lt.mpr h5), written_full32 (Nat.le_of_not_lt h4) h5⟩
  rw [if_neg (mt UInt64.lt_iff_toNat_lt.mp h5)]
  exact ⟨_, _, rfl, written_full64 (Nat.le_of_not_lt h5)⟩

/-! ### The codec -/

namespace PdsReader

/-- What the writer puts down is read back, and no more than that. -/
theorem readU64_writeU64 (v : UInt64) (suffix : List UInt8) :
    readU64 (writeU64 v ++ suffix) = some (v, suffix) := by
  obtain ⟨b, tail, heq, hw⟩ := writeU64_written v
  rw [heq, List.cons_append, readU64_form hw.unsigned, ← hw.width,
    if_pos (by rw [List.length_append]; omega), List.take_left, List.drop_left, hw.value,
    UInt64.ofNat_toNat]

end PdsReader

/-- These bytes are a number, in one of the unsigned forms. -/
def IsForm (v : UInt64) (bytes : List UInt8) : Prop :=
  ∃ b tail, bytes = b :: tail ∧ Unsigned b ∧ PdsReader.readU64 bytes = some (v, [])

theorem isForm_writeU64 (v : UInt64) : IsForm v (writeU64 v) := by
  obtain ⟨b, tail, heq, hw⟩ := writeU64_written v
  refine ⟨b, tail, heq, hw.unsigned, ?_⟩
  have h := PdsReader.readU64_writeU64 v []
  rw [List.append_nil] at h
  exact h

/-- The widths there are. -/
theorem lead_width (b : UInt8) : (lead b).1 ≤ 4 ∨ (lead b).1 = 8 := by
  unfold lead
  split_ifs <;> simp

theorem length_writeU64_le {v : UInt64} {bytes : List UInt8} (h : IsForm v bytes) :
    (writeU64 v).length ≤ bytes.length := by
  obtain ⟨b, tail, heq, hw⟩ := writeU64_written v
  obtain ⟨b', tail', rfl, hb', hread⟩ := h
  obtain ⟨hlen, hlt⟩ := PdsReader.readU64_lt hb' hread
  rw [heq, List.length_cons, List.length_cons, hw.width, hlen]
  have hwidth := lead_width b
  have hwidth' := lead_width b'
  by_contra hlonger
  have hsmaller : (lead b').1 < (lead b).1 := by
    rw [List.length_nil] at hlonger
    omega
  exact absurd hlt (Nat.not_lt_of_le (hw.needed _ (by omega) hsmaller))

/-- An encoding: bytes that are read as a number to the last of them. -/
def IsEncoding (bytes : List UInt8) : Prop := ∃ v, PdsReader.readU64 bytes = some (v, [])

theorem isEncoding_writeU64 (v : UInt64) : IsEncoding (writeU64 v) := by
  obtain ⟨_, _, _, _, hread⟩ := isForm_writeU64 v
  exact ⟨v, hread⟩

theorem encoding_prefix {a more : List UInt8} (ha : IsEncoding a) (h : IsEncoding (a ++ more)) :
    more = [] := by
  obtain ⟨v, hread⟩ := ha
  obtain ⟨w, hread'⟩ := h
  obtain ⟨used, -, heq, hused⟩ := PdsReader.readU64_spec a v [] hread
  rw [List.append_nil] at heq
  subst heq
  rw [hused more] at hread'
  exact (Prod.mk.inj (Option.some.inj hread')).2

/-- **The numbers of variable length are a code.**  What is written of a number is read back as
that number, whatever stands behind it, and takes up all of what was written.  It is the shortest
of the unsigned forms.  No encoding begins another; a written number is one.  A number that is
read at all takes at least one byte. -/
theorem pds_codec :
    (∀ v suffix, PdsReader.readU64 (writeU64 v ++ suffix) = some (v, suffix))
    ∧ (∀ v, IsForm v (writeU64 v) ∧
        ∀ bytes, IsForm v bytes → (writeU64 v).length ≤ bytes.length)
    ∧ (∀ v, IsEncoding (writeU64 v))
    ∧ (∀ a more, IsEncoding a → IsEncoding (a ++ more) → more = [])
    ∧ ∀ bytes v r, PdsReader.readU64 bytes = some (v, r) → ∃ used, used ≠ [] ∧ bytes = used ++ r := by
  refine ⟨PdsReader.readU64_writeU64, ?_, isEncoding_writeU64, ?_, ?_⟩
  · intro v
    exact ⟨isForm_writeU64 v, fun _ h => length_writeU64_le h⟩
  · intro a more ha h
    exact encoding_prefix ha h
  · intro bytes v r h
    obtain ⟨used, hne, heq, -⟩ := PdsReader.readU64_spec bytes v r h
    exact ⟨used, hne, heq⟩

theorem codec_at_300 :
    (writeU64 300).length ≤ [0xC0, 0x01, (0x2C : UInt8)].length
    ∧ (IsEncoding ([0x81, 0x2C] ++ []) → ([] : List UInt8) = [])
    ∧ ∃ used : List UInt8, used ≠ [] ∧ [0x81, 0x2C, 0x07] = used ++ [0x07] := by
  obtain ⟨-, hform, -, hprefix, htakes⟩ := pds_codec
  refine ⟨?_, ?_, ?_⟩
  · exact (hform 300).2 _ ⟨_, _, rfl, (by unfold Unsigned; decide), (by decide +kernel)⟩
  · exact hprefix [0x81, 0x2C] [] ⟨300, by decide +kernel⟩
  · exact htakes [0x81, 0x2C, 0x07] 300 [0x07] (by decide +kernel)

end Baston.Voice
