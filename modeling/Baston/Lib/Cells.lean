/-
Grids over exact coordinates.

Two coordinates no further apart than a cell is wide fall into the same cell or into
neighbouring ones.  That stays so when the cell's number saturates at the ends of an
`i32`, and the neighbour is then reached without overflow.

A range `[0, d)` that is cut into `n` steps has a coordinate sent as the number of whole steps
below it.  Truncation loses less than one step.
-/
import Mathlib.Algebra.Order.Floor.Ring
import Mathlib.Tactic.FieldSimp
import Mathlib.Tactic.Linarith
import Mathlib.Tactic.Ring

namespace Cells

/-- `x as i32` of a whole number: saturating. -/
def saturate (n : Int) : Int32 := Int32.ofIntClamp n

theorem toInt_saturate (n : Int) :
    (saturate n).toInt
      = if n < -2147483648 then -2147483648 else if 2147483647 < n then 2147483647 else n := by
  have hmin : Int32.minValue.toInt = -2147483648 := by decide
  have hmax : Int32.maxValue.toInt = 2147483647 := by decide
  unfold saturate Int32.ofIntClamp
  by_cases hlow : Int32.minValue.toInt ≤ n
  · rw [dif_pos hlow, if_neg (by omega)]
    by_cases hhigh : n ≤ Int32.maxValue.toInt
    · rw [dif_pos hhigh, if_neg (by omega)]
      exact Int32.toInt_ofInt_of_le (by omega) (by omega)
    · rw [dif_neg hhigh, if_pos (by omega), hmax]
  · rw [dif_neg hlow, if_pos (by omega), hmin]

/-- A cell and its two neighbours. -/
def steps : List Int32 := [-1, 0, 1]

/-- Numbers one apart saturate to cells one step apart. -/
theorem saturate_near {n m : Int} (h : |n - m| ≤ 1) : ∃ d ∈ steps, saturate n = saturate m + d := by
  obtain ⟨hlow, hhigh⟩ := abs_le.mp h
  have hn := toInt_saturate n
  have hm := toInt_saturate m
  have hrange := (saturate n).toInt_lt
  have hrange' := (saturate n).le_toInt
  have key : ∀ d : Int32, (saturate n).toInt = (saturate m).toInt + d.toInt →
      saturate n = saturate m + d := by
    intro d hd
    apply Int32.toInt_inj.mp
    rw [Int32.toInt_add, ← hd]
    exact (Int.bmod_eq_of_le (by omega) (by omega)).symm
  have hcases : (saturate n).toInt = (saturate m).toInt - 1
      ∨ (saturate n).toInt = (saturate m).toInt
      ∨ (saturate n).toInt = (saturate m).toInt + 1 := by
    rw [hn, hm]
    split <;> split <;> (try split) <;> (try split) <;> omega
  rcases hcases with hd | hd | hd
  · exact ⟨-1, by simp [steps], key (-1) hd⟩
  · exact ⟨0, by simp [steps], key 0 (by rw [hd]; exact (Int.add_zero _).symm)⟩
  · exact ⟨1, by simp [steps], key 1 hd⟩

section Floor

variable {K : Type} [Field K] [LinearOrder K] [IsStrictOrderedRing K] [FloorRing K]

/-- Coordinates at most a cell apart lie in cells at most one apart. -/
theorem floor_div_near {cell a b : K} (hcell : 0 < cell) (h : |a - b| ≤ cell) :
    |⌊a / cell⌋ - ⌊b / cell⌋| ≤ 1 := by
  obtain ⟨hlow, hhigh⟩ := abs_le.mp h
  have hab : a / cell ≤ b / cell + 1 := by
    rw [div_add_one (ne_of_gt hcell)]
    exact (div_le_div_iff_of_pos_right hcell).mpr (by linarith)
  have hba : b / cell ≤ a / cell + 1 := by
    rw [div_add_one (ne_of_gt hcell)]
    exact (div_le_div_iff_of_pos_right hcell).mpr (by linarith)
  have hab' := Int.floor_le_floor hab
  have hba' := Int.floor_le_floor hba
  rw [Int.floor_add_one] at hab' hba'
  rw [abs_le]
  omega

end Floor

end Cells

namespace Quantise

variable {K : Type} [Field K] [LinearOrder K] [IsStrictOrderedRing K] [FloorRing K]

/-- The number of whole steps below `x`. -/
def level (n d x : K) : Int := ⌊x / d * n⌋

/-- The coordinate at `k` steps. -/
def value (n d : K) (k : Int) : K := k / n * d

variable {n d x : K}

theorem level_nonneg (hn : 0 < n) (hx : 0 ≤ x) (hd : x < d) : 0 ≤ level n d x := by
  have hpos : 0 < d := lt_of_le_of_lt hx hd
  exact Int.floor_nonneg.mpr (mul_nonneg (div_nonneg hx hpos.le) hn.le)

theorem level_lt (hn : 0 < n) (hx : 0 ≤ x) (hd : x < d) : (level n d x : K) < n := by
  have hpos : 0 < d := lt_of_le_of_lt hx hd
  have hone : x / d < 1 := (div_lt_one hpos).mpr hd
  calc (level n d x : K) ≤ x / d * n := Int.floor_le _
    _ < 1 * n := mul_lt_mul_of_pos_right hone hn
    _ = n := one_mul n

/-- **Truncation loses less than one step.** -/
theorem value_level (hn : 0 < n) (hd : 0 < d) :
    0 ≤ x - value n d (level n d x) ∧ x - value n d (level n d x) < d / n := by
  have hlow : (level n d x : K) ≤ x / d * n := Int.floor_le _
  have hhigh : x / d * n < level n d x + 1 := Int.lt_floor_add_one _
  have hx : x = x / d * n / n * d := by
    field_simp
  have hstep : value n d (level n d x) = level n d x / n * d := rfl
  constructor
  · have hle : level n d x / n * d ≤ x / d * n / n * d := by gcongr
    rw [hstep]
    linarith
  · have hlt : x / d * n / n * d < (level n d x + 1) / n * d := by gcongr
    have hsplit : ((level n d x : K) + 1) / n * d = level n d x / n * d + d / n := by ring
    rw [hstep]
    linarith

end Quantise
