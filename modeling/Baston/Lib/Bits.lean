/-
Numbers as bit lists, most significant bit first.
-/
import Mathlib.Data.List.Induction
import Mathlib.Data.Nat.Bitwise
import Mathlib.Tactic.Ring

namespace Bits

/-- The number a bit list spells. -/
def value (l : List Bool) : Nat := l.foldl (fun v b => 2 * v + b.toNat) 0

/-- The low `n` bits of `v`. -/
def msb (n v : Nat) : List Bool := (List.range n).map fun i => v.testBit (n - 1 - i)

@[simp] theorem length_msb (n v : Nat) : (msb n v).length = n := by
  unfold msb
  rw [List.length_map, List.length_range]

theorem value_append_singleton (l : List Bool) (b : Bool) :
    value (l ++ [b]) = 2 * value l + b.toNat := by
  unfold value
  rw [List.foldl_append]
  rfl

theorem value_lt (l : List Bool) : value l < 2 ^ l.length := by
  induction l using List.reverseRecOn with
  | nil => exact Nat.zero_lt_one
  | append_singleton l b ih =>
      rw [value_append_singleton, List.length_append, List.length_singleton, pow_succ]
      have hb : b.toNat ≤ 1 := Bool.toNat_le b
      omega

theorem msb_succ (n v : Nat) : msb (n + 1) v = msb n (v / 2) ++ [v.testBit 0] := by
  unfold msb
  rw [List.range_succ, List.map_append]
  congr 1
  · apply List.map_congr_left
    intro i hi
    have hi' : i < n := List.mem_range.mp hi
    rw [Nat.testBit_div_two, show n + 1 - 1 - i = n - 1 - i + 1 by omega]
  · simp

/-- The low bits of a number spell its remainder. -/
theorem value_msb : ∀ n v : Nat, value (msb n v) = v % 2 ^ n := by
  intro n
  induction n with
  | zero =>
      intro v
      simp [msb, value, Nat.mod_one]
  | succ n ih =>
      intro v
      rw [msb_succ, value_append_singleton, ih, Nat.toNat_testBit, pow_succ]
      have h := Nat.mod_mul (x := v) (a := 2) (b := 2 ^ n)
      simp only [pow_zero, Nat.div_one]
      rw [mul_comm (2 ^ n) 2, h]
      ring

theorem msb_zero (n : Nat) : msb n 0 = List.replicate n false := by
  unfold msb
  simp only [Nat.zero_testBit, List.map_const', List.length_range]

theorem value_append (xs ys : List Bool) :
    value (xs ++ ys) = value xs * 2 ^ ys.length + value ys := by
  induction ys using List.reverseRecOn with
  | nil => simp [value]
  | append_singleton ys b ih =>
      rw [← List.append_assoc, value_append_singleton, value_append_singleton, ih,
        List.length_append, List.length_singleton, pow_succ]
      ring

/-- The first bits of a number are what is left of it without the others. -/
theorem value_take (l : List Bool) (n : Nat) :
    value (l.take n) = value l / 2 ^ (l.length - n) := by
  have hlen : (l.drop n).length = l.length - n := List.length_drop
  have hlt := value_lt (l.drop n)
  rw [hlen] at hlt
  conv_rhs => rw [← List.take_append_drop n l, value_append, List.take_append_drop, hlen]
  rw [mul_comm, Nat.mul_add_div (Nat.two_pow_pos _), Nat.div_eq_of_lt hlt, Nat.add_zero]

/-- Leading zeros do not count. -/
theorem value_zeros (k : Nat) (l : List Bool) : value (List.replicate k false ++ l) = value l := by
  have hzero : value (List.replicate k false) = 0 := by
    induction k with
    | zero => rfl
    | succ k ih => rw [List.replicate_succ', value_append_singleton, ih]; rfl
  rw [value_append, hzero, Nat.zero_mul, Nat.zero_add]

end Bits
