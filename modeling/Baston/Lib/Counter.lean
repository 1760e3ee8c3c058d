/-
Counters kept as byte strings, the lowest byte first.

`increment` and `decrement` are the loops programs run over such a counter: a byte is
stepped, and the carry or the borrow goes on to the next byte only where this one
came round.  Both are the step of the number the string spells, modulo the range of
its length.
-/
import Mathlib.Tactic.Ring

namespace Counter

/-- The number a byte string spells, the lowest byte first. -/
def value : List UInt8 → Nat
  | [] => 0
  | b :: rest => b.toNat + 256 * value rest

/-- Add one; the next byte is touched where this one came round to zero. -/
def increment : List UInt8 → List UInt8
  | [] => []
  | b :: rest => if b + 1 ≠ 0 then (b + 1) :: rest else (b + 1) :: increment rest

/-- Subtract one; the next byte is touched where this one was zero. -/
def decrement : List UInt8 → List UInt8
  | [] => []
  | b :: rest => if b ≠ 0 then (b - 1) :: rest else (b - 1) :: decrement rest

@[simp] theorem length_increment (l : List UInt8) : (increment l).length = l.length := by
  induction l with
  | nil => rfl
  | cons b rest ih =>
      simp only [increment]
      split
      · rfl
      · rw [List.length_cons, List.length_cons, ih]

@[simp] theorem length_decrement (l : List UInt8) : (decrement l).length = l.length := by
  induction l with
  | nil => rfl
  | cons b rest ih =>
      simp only [decrement]
      split
      · rfl
      · rw [List.length_cons, List.length_cons, ih]

theorem value_lt (l : List UInt8) : value l < 256 ^ l.length := by
  induction l with
  | nil => exact Nat.one_pos
  | cons b rest ih =>
      have hb : b.toNat < 256 := b.toNat_lt
      simp only [value, List.length_cons, pow_succ]
      omega

/-- The lowest byte is the remainder by 256, and the rest of the string the quotient. -/
theorem value_cons_mod (b : UInt8) (rest : List UInt8) : value (b :: rest) % 256 = b.toNat := by
  have hb : b.toNat < 256 := b.toNat_lt
  simp only [value]
  omega

theorem value_cons_div (b : UInt8) (rest : List UInt8) : value (b :: rest) / 256 = value rest := by
  have hb : b.toNat < 256 := b.toNat_lt
  simp only [value]
  omega

/-- Strings of one length that spell one number are equal. -/
theorem value_inj : ∀ {l l' : List UInt8}, l.length = l'.length → value l = value l' → l = l' := by
  intro l
  induction l with
  | nil =>
      intro l' hlen _
      exact (List.length_eq_zero_iff.mp hlen.symm).symm
  | cons b rest ih =>
      intro l' hlen hval
      cases l' with
      | nil => exact absurd hlen (by simp)
      | cons b' rest' =>
          have hlow := value_cons_mod b rest
          have hhigh := value_cons_div b rest
          rw [hval, value_cons_mod] at hlow
          rw [hval, value_cons_div] at hhigh
          rw [UInt8.toNat_inj.mp hlow, ih (Nat.succ.inj hlen) hhigh.symm]

private theorem toNat_add_one (b : UInt8) :
    (b + 1 ≠ 0 → (b + 1).toNat = b.toNat + 1) ∧ (b + 1 = 0 → b.toNat = 255) := by
  have hb : b.toNat < 256 := b.toNat_lt
  have hadd : (b + 1).toNat = (b.toNat + 1) % 256 := UInt8.toNat_add b 1
  constructor
  · intro hne
    have hpos : (b + 1).toNat ≠ 0 := fun h0 => hne (UInt8.toNat_inj.mp h0)
    omega
  · intro h0
    rw [h0, UInt8.toNat_zero] at hadd
    omega

private theorem toNat_sub_one (b : UInt8) :
    (b ≠ 0 → (b - 1).toNat + 1 = b.toNat) ∧ (b = 0 → (b - 1).toNat = 255) := by
  constructor
  · intro hne
    have hpos : b.toNat ≠ 0 := fun h0 => hne (UInt8.toNat_inj.mp h0)
    have hsub : (b - 1).toNat = (256 - 1 + b.toNat) % 256 := UInt8.toNat_sub b 1
    have hb : b.toNat < 256 := b.toNat_lt
    omega
  · intro h0
    subst h0
    rfl

/-- **Incrementing adds one**, modulo the range of the string. -/
theorem value_increment (l : List UInt8) :
    value (increment l) = (value l + 1) % 256 ^ l.length := by
  induction l with
  | nil => simp [increment, value]
  | cons b rest ih =>
      obtain ⟨hstep, hround⟩ := toNat_add_one b
      have hrest := value_lt rest
      simp only [increment]
      by_cases h0 : b + 1 = 0
      · rw [if_neg (not_not_intro h0), h0]
        simp only [value, UInt8.toNat_zero, ih, hround h0, List.length_cons, pow_succ]
        rw [show 255 + 256 * value rest + 1 = 256 * (value rest + 1) by ring,
          mul_comm (256 ^ rest.length), Nat.mul_mod_mul_left]
        omega
      · have hb : b.toNat + 1 < 256 := by
          have := (b + 1).toNat_lt
          rw [hstep h0] at this
          exact this
        rw [if_pos h0]
        simp only [value, hstep h0, List.length_cons, pow_succ]
        rw [Nat.mod_eq_of_lt (by omega)]
        omega

/-- **Decrementing subtracts one**, modulo the range of the string. -/
theorem value_decrement (l : List UInt8) :
    (value (decrement l) + 1) % 256 ^ l.length = value l % 256 ^ l.length := by
  induction l with
  | nil => simp [Nat.mod_one]
  | cons b rest ih =>
      obtain ⟨hstep, hround⟩ := toNat_sub_one b
      simp only [decrement]
      by_cases h0 : b = 0
      · rw [if_neg (not_not_intro h0)]
        simp only [value, hround h0, List.length_cons, pow_succ]
        rw [show 255 + 256 * value (decrement rest) + 1 = 256 * (value (decrement rest) + 1) by ring,
          mul_comm (256 ^ rest.length), Nat.mul_mod_mul_left, ih, h0, UInt8.toNat_zero,
          Nat.zero_add, Nat.mul_mod_mul_left]
      · rw [if_pos h0]
        simp only [value]
        rw [← hstep h0]
        congr 1
        omega

end Counter
