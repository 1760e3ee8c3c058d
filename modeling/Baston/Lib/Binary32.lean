/-
Single precision, as far as an order proof needs it.

The numbers of binary32 that carry no sign are in the order of their bits: zero, then
the positive numbers from the smallest up, then infinity.  Rounding a sum takes the
floor of it or one more, and the floor of a sum is no lower than either summand.  So
adding what is not negative never lowers a number, however it is rounded, and the bits
say so.
-/
import Mathlib

namespace Binary32

open Float.Model Float.Model.UnpackedFloat

/-! ### Bits -/

/-- What `n` spells, as the bits of a float. -/
def decode (n : Nat) : UnpackedFloat :=
  let s : Sign := if n < 2 ^ 31 then .positive else .negative
  let e : Nat := n / 2 ^ 23 % 256
  let m : Nat := n % 2 ^ 23
  if e = 255 then
    if m = 0 then .infinity s else .notANumber
  else if e = 0 then
    if h : m = 0 then .zero s else .finite s m (-149) (Nat.pos_of_ne_zero h)
  else
    .finite s (2 ^ 23 + m) (e - 150) (by omega)

theorem toNat_mantissa (b : BitVec 32) :
    (@unpackMantissa Format.binary32 b).toNat = b.toNat % 2 ^ 23 := by
  simp [unpackMantissa, BitVec.extractLsb_toNat]

theorem toNat_exponent (b : BitVec 32) :
    (@unpackExponent Format.binary32 b).toNat = b.toNat / 2 ^ 23 % 256 := by
  simp [unpackExponent, BitVec.extractLsb_toNat, Nat.shiftRight_eq_div_pow]

theorem sign_eq (b : BitVec 32) : Sign.ofBitVec (@unpackSign Format.binary32 b)
    = if b.toNat < 2 ^ 31 then .positive else .negative := by
  have h : (@unpackSign Format.binary32 b).toNat = b.toNat / 2 ^ 31 := by
    have hlt : b.toNat < 2 ^ 32 := b.isLt
    simp [unpackSign, BitVec.extractLsb_toNat, Nat.shiftRight_eq_div_pow]
    omega
  unfold Sign.ofBitVec
  have : @unpackSign Format.binary32 b = 0#1 ↔ b.toNat < 2 ^ 31 := by
    rw [← BitVec.toNat_inj, h]
    simp
  simp only [this]

theorem unpack_eq (b : BitVec 32) : UnpackedFloat.unpack Format.binary32 b = decode b.toNat := by
  have hm := toNat_mantissa b
  have he := toNat_exponent b
  have hinf : @unpackExponent Format.binary32 b = (-1#_)
      ↔ b.toNat / 2 ^ 23 % 256 = 255 := by
    rw [← he, ← BitVec.toNat_inj]
    simp
  have hsub : @unpackExponent Format.binary32 b = 0#_ ↔ b.toNat / 2 ^ 23 % 256 = 0 := by
    rw [← he, ← BitVec.toNat_inj]
    simp
  have hzero : @unpackMantissa Format.binary32 b = 0#_ ↔ b.toNat % 2 ^ 23 = 0 := by
    rw [← hm, ← BitVec.toNat_inj]
    simp
  have himplicit : (1#1 ++ @unpackMantissa Format.binary32 b).toNat
      = 2 ^ 23 + b.toNat % 2 ^ 23 := by
    rw [BitVec.toNat_append, ← Nat.shiftLeft_add_eq_or_of_lt (BitVec.isLt _), hm]
    simp [Nat.shiftLeft_eq]
  unfold UnpackedFloat.unpack decode
  simp only [sign_eq, hinf, hsub, hzero, hm, he, himplicit]
  split
  · rfl
  · split
    · next hexp =>
        split
        · rfl
        · simp only [hexp]
          rfl
    · rfl

/-- A mantissa and an exponent in the form the format keeps them in. -/
structure Canonical (m : Nat) (e : Int) : Prop where
  pos : 0 < m
  fits : m < 2 ^ 24
  least : -149 ≤ e
  normal : 2 ^ 23 ≤ m ∨ e = -149

/-- The place of a positive finite number among them all. -/
def rank (m : Nat) (e : Int) : Nat := (e + 149).toNat * 2 ^ 23 + m

theorem Canonical.rank_pos {m : Nat} {e : Int} (h : Canonical m e) : 0 < rank m e := by
  have := h.pos
  unfold rank
  omega

/-- The bits of positive infinity. -/
def infinityBits : Nat := 255 * 2 ^ 23

theorem decode_cases {n : Nat} (h : n ≤ infinityBits) :
    (n = 0 ∧ decode n = .zero .positive)
      ∨ (∃ m e hm, decode n = .finite .positive m e hm ∧ Canonical m e ∧ rank m e = n
        ∧ n < infinityBits)
      ∨ (n = infinityBits ∧ decode n = .infinity .positive) := by
  unfold infinityBits at h ⊢
  have hsign : n < 2 ^ 31 := by omega
  unfold decode
  simp only [if_pos hsign]
  by_cases htop : n = 255 * 2 ^ 23
  · refine .inr (.inr ⟨htop, ?_⟩)
    rw [if_pos (by omega), if_pos (by omega)]
  · by_cases hzero : n = 0
    · refine .inl ⟨hzero, ?_⟩
      rw [if_neg (by omega), if_pos (by omega), dif_pos (by omega)]
    · refine .inr (.inl ?_)
      rw [if_neg (by omega)]
      by_cases hsub : n / 2 ^ 23 % 256 = 0
      · rw [if_pos hsub, dif_neg (by omega)]
        refine ⟨_, _, by omega, rfl, ⟨by omega, by omega, by omega, .inr rfl⟩, ?_, by omega⟩
        unfold rank
        omega
      · rw [if_neg hsub]
        refine ⟨_, _, by omega, rfl,
          ⟨by omega, by omega, by omega, .inl (by omega)⟩, ?_, by omega⟩
        unfold rank
        omega

theorem toNat_packComponents (s : Sign) (e : BitVec 8) (m : BitVec 23) :
    (packComponents Format.binary32 s e m).toNat
      = (s.toBitVec.toNat * 2 ^ 8 + e.toNat) * 2 ^ 23 + m.toNat := by
  unfold packComponents
  rw [BitVec.toNat_append, ← Nat.shiftLeft_add_eq_or_of_lt m.isLt, BitVec.toNat_append,
    ← Nat.shiftLeft_add_eq_or_of_lt e.isLt, Nat.shiftLeft_eq, Nat.shiftLeft_eq]

theorem toNat_pack {m : Nat} {e : Int} (hm : 0 < m) (hc : Canonical m e) :
    (UnpackedFloat.pack Format.binary32 (.finite .positive m e hm)).toNat
      = min (rank m e) infinityBits := by
  obtain ⟨hpos, hfits, hleast, hnormal⟩ := hc
  have hbias : (e + (Format.binary32.exponentBias : Nat) + (23 : Nat)).toNat = (e + 150).toNat := by
    simp [Format.exponentBias]
    omega
  have hlog : m.log2 + 1 = Format.binary32.mantissaBits ↔ 2 ^ 23 ≤ m := by
    rw [← Nat.le_log2 (by omega)]
    have := (Nat.log2_lt (by omega)).mpr hfits
    simp [Format.mantissaBits]
    omega
  unfold UnpackedFloat.pack rank infinityBits
  simp only [hbias, hlog]
  split
  · next h =>
      rw [packedInfinity, toNat_packComponents]
      simp [Sign.toBitVec]
      omega
  · next h =>
      split
      · next hn =>
          rw [toNat_packComponents]
          simp [Sign.toBitVec]
          omega
      · next hn =>
          rw [toNat_packComponents]
          simp [Sign.toBitVec]
          omega

theorem shift_mantissa (em : ExtendedMantissa) (k : Nat) :
    (em >>> k).mantissa = em.mantissa / 2 ^ k := by
  show (Nat.repeat ExtendedMantissa.shiftRightOne k em).mantissa = _
  induction k with
  | zero => simp [Nat.repeat]
  | succ k ih =>
      show (Nat.repeat ExtendedMantissa.shiftRightOne k em).mantissa / 2 = _
      rw [ih, Nat.div_div_eq_div_mul, Nat.pow_succ]

/-- Rounding goes up by one at most, and never down. -/
theorem rounded_bounds (em : ExtendedMantissa) :
    em.mantissa ≤ em.roundedMantissa ∧ em.roundedMantissa ≤ em.mantissa + 1 := by
  rcases em with ⟨m, r, s⟩
  unfold ExtendedMantissa.roundedMantissa ExtendedMantissa.accuracy Accuracy.roundToNearestEven
  cases r <;> cases s <;> simp
  omega

theorem target_eq (m : Nat) (e : Int) :
    Format.binary32.targetExponent (totalExponent m e) = max ((m.log2 : Int) + e - 23) (-149) := by
  simp only [Format.targetExponent, totalExponent, Format.mantissaBits, Format.minExponent]
  norm_num
  omega

/-- The shift after rounding only carries a mantissa that came out one bit too long. -/
theorem roundWithAccuracy_eq {s : Sign} {m r : Nat} {e t : Int}
    (hr : (shiftToTargetExponent Format.binary32 m e .exact).1.roundedMantissa = r)
    (ht : (shiftToTargetExponent Format.binary32 m e .exact).2 = t) (hpos : 0 < r)
    (hfits : r ≤ 2 ^ 24) (hleast : -149 ≤ t) :
    ∃ h, roundWithAccuracy Format.binary32 s m e .exact
      = .finite s (if r = 2 ^ 24 then 2 ^ 23 else r) (if r = 2 ^ 24 then t + 1 else t) h := by
  have hcarry : (shiftToTargetExponent Format.binary32 r t .exact).1.mantissa
        = (if r = 2 ^ 24 then 2 ^ 23 else r)
      ∧ (shiftToTargetExponent Format.binary32 r t .exact).2
        = if r = 2 ^ 24 then t + 1 else t := by
    unfold shiftToTargetExponent shiftToExponent
    rw [target_eq]
    simp only [shift_mantissa, ExtendedMantissa.ofMantissaAndAccuracy]
    by_cases hover : r = 2 ^ 24
    · have hlog : r.log2 = 24 := by rw [hover, Nat.log2_two_pow]
      have hone : (max ((r.log2 : Int) + t - 23) (-149) - t).toNat = 1 := by omega
      rw [hone, hover]
      exact ⟨rfl, rfl⟩
    · have hlog : r.log2 < 24 := (Nat.log2_lt (by omega)).mpr (by omega)
      have hnone : (max ((r.log2 : Int) + t - 23) (-149) - t).toNat = 0 := by omega
      rw [hnone, if_neg hover, if_neg hover]
      exact ⟨Nat.div_one r, Int.add_zero t⟩
  have hnonzero : 0 < (if r = 2 ^ 24 then 2 ^ 23 else r) := by
    split <;> omega
  refine ⟨hnonzero, ?_⟩
  unfold roundWithAccuracy
  simp only [hr, ht, hcarry.1, hcarry.2]
  rw [dif_neg (by omega)]

/-- **Rounding a sum does not go below either part.** -/
theorem round_le {m : Nat} {e : Int} (hc : Canonical m e) {sum : Nat} {low : Int} (hlow : low ≤ e)
    (hsum : m * 2 ^ (e - low).toNat ≤ sum) :
    ∃ m' e' h, UnpackedFloat.round Format.binary32 .positive sum low = .finite .positive m' e' h
      ∧ Canonical m' e' ∧ rank m e ≤ rank m' e' := by
  obtain ⟨hpos, hfits, hleast, hnormal⟩ := hc
  have hsumPos : sum ≠ 0 := by
    have : 0 < m * 2 ^ (e - low).toNat := by positivity
    omega
  obtain ⟨t, ht⟩ : ∃ t, t = max ((sum.log2 : Int) + low - 23) (-149) := ⟨_, rfl⟩
  obtain ⟨k, hk⟩ : ∃ k, k = (t - low).toNat := ⟨_, rfl⟩
  have hte : e ≤ t := by
    rcases hnormal with hnormal | hsub
    · have hlog : 23 + (e - low).toNat ≤ sum.log2 := by
        rw [Nat.le_log2 hsumPos, Nat.pow_add]
        exact (Nat.mul_le_mul_right _ hnormal).trans hsum
      omega
    · omega
  have hfloor : sum / 2 ^ k < 2 ^ 24 := by
    apply (Nat.div_lt_iff_lt_mul (by positivity)).mpr
    rw [← Nat.pow_add]
    exact Nat.lt_of_lt_of_le Nat.lt_log2_self (Nat.pow_le_pow_right (by decide) (by omega))
  have hlong : -149 < t → 2 ^ 23 ≤ sum / 2 ^ k := by
    intro hnormal
    apply (Nat.le_div_iff_mul_le (by positivity)).mpr
    rw [← Nat.pow_add, ← Nat.le_log2 hsumPos]
    omega
  have hreach : t = e → m ≤ sum / 2 ^ k := by
    intro heq
    apply (Nat.le_div_iff_mul_le (by positivity)).mpr
    rw [hk, heq]
    exact hsum
  have hmantissa : (shiftToTargetExponent Format.binary32 sum low .exact).1.mantissa
        = sum / 2 ^ k
      ∧ (shiftToTargetExponent Format.binary32 sum low .exact).2 = t := by
    unfold shiftToTargetExponent shiftToExponent
    rw [target_eq, ← ht]
    simp only [shift_mantissa, ExtendedMantissa.ofMantissaAndAccuracy, ← hk]
    exact ⟨trivial, by omega⟩
  have hbounds := rounded_bounds (shiftToTargetExponent Format.binary32 sum low .exact).1
  rw [hmantissa.1] at hbounds
  obtain ⟨r, hr⟩ : ∃ r, (shiftToTargetExponent Format.binary32 sum low
    .exact).1.roundedMantissa = r := ⟨_, rfl⟩
  rw [hr] at hbounds
  have hpos' : 0 < r := by omega
  obtain ⟨h, heq⟩ := roundWithAccuracy_eq (s := .positive) hr hmantissa.2 hpos' (by omega)
    (by omega)
  have hround : UnpackedFloat.round Format.binary32 .positive sum low
      = roundWithAccuracy Format.binary32 .positive sum low .exact := by
    have hnone : (low - t).toNat = 0 := by omega
    unfold UnpackedFloat.round decreaseExponent
    simp only [target_eq, ← ht, hnone]
    simp
  refine ⟨_, _, h, hround.trans heq, ⟨h, ?_, ?_, ?_⟩, ?_⟩
  · split <;> omega
  · split <;> omega
  · split <;> omega
  · unfold rank
    split <;> omega

/-! ### The order -/

theorem compare_rank {m n : Nat} {e f : Int} (hm : Canonical m e) (hn : Canonical n f) :
    (compare e f).then (compare m n) = compare (rank m e) (rank n f) := by
  obtain ⟨hmpos, hmfits, hmleast, hmnormal⟩ := hm
  obtain ⟨hnpos, hnfits, hnleast, hnnormal⟩ := hn
  unfold rank
  rcases lt_trichotomy e f with hlt | rfl | hgt
  · rw [compare_lt_iff_lt.mpr hlt]
    exact (compare_lt_iff_lt.mpr (by omega)).symm
  · rw [compare_eq_iff_eq.mpr rfl]
    show compare m n = _
    rcases lt_trichotomy m n with hlt | rfl | hgt
    · rw [compare_lt_iff_lt.mpr hlt]
      exact (compare_lt_iff_lt.mpr (by omega)).symm
    · rw [compare_eq_iff_eq.mpr rfl, compare_eq_iff_eq.mpr rfl]
    · rw [compare_gt_iff_gt.mpr hgt]
      exact (compare_gt_iff_gt.mpr (by omega)).symm
  · rw [compare_gt_iff_gt.mpr hgt]
    exact (compare_gt_iff_gt.mpr (by omega)).symm

/-- **Without a sign, the bits are in the order of the numbers.** -/
theorem compare_decode {m n : Nat} (hm : m ≤ infinityBits) (hn : n ≤ infinityBits) :
    (decode m).compare (decode n) = some (compare m n) := by
  have hlt : ∀ {a b : Nat}, a < b → some (compare a b) = some .lt := fun h =>
    congrArg some (compare_lt_iff_lt.mpr h)
  have hgt : ∀ {a b : Nat}, b < a → some (compare a b) = some .gt := fun h =>
    congrArg some (compare_gt_iff_gt.mpr h)
  rcases decode_cases hm with ⟨hzm, hdm⟩ | ⟨mm, em, pm, hdm, hcm, hrm, htm⟩ | ⟨him, hdm⟩
  · rcases decode_cases hn with ⟨hzn, hdn⟩ | ⟨mn, en, pn, hdn, hcn, hrn, htn⟩ | ⟨hin, hdn⟩
    · rw [hdm, hdn, hzm, hzn]
      rfl
    · have hpn := hcn.rank_pos
      rw [hdm, hdn, hlt (by omega)]
      rfl
    · rw [hdm, hdn, hzm, hin]
      rfl
  · have hpm := hcm.rank_pos
    rcases decode_cases hn with ⟨hzn, hdn⟩ | ⟨mn, en, pn, hdn, hcn, hrn, htn⟩ | ⟨hin, hdn⟩
    · rw [hdm, hdn, hgt (by omega)]
      rfl
    · rw [hdm, hdn, ← hrm, ← hrn, ← compare_rank hcm hcn]
      rfl
    · rw [hdm, hdn, hlt (by omega)]
      rfl
  · rcases decode_cases hn with ⟨hzn, hdn⟩ | ⟨mn, en, pn, hdn, hcn, hrn, htn⟩ | ⟨hin, hdn⟩
    · rw [hdm, hdn, him, hzn]
      rfl
    · rw [hdm, hdn, hgt (by omega)]
      rfl
    · rw [hdm, hdn, him, hin]
      rfl

/-! ### Floats -/

/-- A float without a sign: zero, a positive number or infinity. -/
def Plain (x : Float32) : Prop := x.toBits.toNat ≤ infinityBits

theorem unpack_toModel (x : Float32) : x.toModel.unpack = decode x.toBits.toNat :=
  unpack_eq x.toBits.toBitVec

theorem compare_plain {x y : Float32} (hx : Plain x) (hy : Plain y) :
    x.toModel.unpack.compare y.toModel.unpack
      = some (compare x.toBits.toNat y.toBits.toNat) := by
  rw [unpack_toModel, unpack_toModel]
  exact compare_decode hx hy

theorem lt_iff {x y : Float32} (hx : Plain x) (hy : Plain y) :
    x.lt y = true ↔ x.toBits.toNat < y.toBits.toNat := by
  have h : x.lt y = (x.toModel.unpack.compare y.toModel.unpack == some .lt) := by
    unfold Float32.lt
    exact Bool.decide_coe _
  rw [h, compare_plain hx hy, beq_iff_eq, Option.some_inj, compare_lt_iff_lt]

theorem le_iff {x y : Float32} (hx : Plain x) (hy : Plain y) :
    x.le y = true ↔ x.toBits.toNat ≤ y.toBits.toNat := by
  have h : x.le y = (x.toModel.unpack.compare y.toModel.unpack).any (·.isLE) := by
    unfold Float32.le
    exact Bool.decide_coe _
  rw [h, compare_plain hx hy, Option.any_some, Nat.isLE_compare]

/-- Not a number, or no lower than bits `n` and without a sign. -/
def AtLeast (n : Nat) (x : Float32) : Prop :=
  x.isNaN = true ∨ (n ≤ x.toBits.toNat ∧ Plain x)

/-- What no sum is lowered by: not a number, without a sign, or the zero with one. -/
def Gain (x : Float32) : Prop := x.isNaN = true ∨ Plain x ∨ x.toBits.toNat = 2 ^ 31

theorem unpack_of_isNaN {x : Float32} (h : x.isNaN = true) : x.toModel.unpack = .notANumber := by
  have h' : x.toModel.unpack.isNaN = true := h
  cases hx : x.toModel.unpack with
  | notANumber => rfl
  | infinity s =>
      rw [hx] at h'
      exact absurd h' (by simp [UnpackedFloat.isNaN])
  | zero s =>
      rw [hx] at h'
      exact absurd h' (by simp [UnpackedFloat.isNaN])
  | finite s m e hm =>
      rw [hx] at h'
      exact absurd h' (by simp [UnpackedFloat.isNaN])

theorem isNaN_of_plain {x : Float32} (h : Plain x) : x.isNaN = false := by
  show x.toModel.unpack.isNaN = false
  rw [unpack_toModel]
  rcases decode_cases h with ⟨-, hd⟩ | ⟨m, e, hm, hd, -⟩ | ⟨-, hd⟩
  · rw [hd]
    rfl
  · rw [hd]
    rfl
  · rw [hd]
    rfl

theorem isNaN_pack : (Float32.ofModel (Float32.Model.pack .notANumber)).isNaN = true := by
  decide

/-- The decoding of the zero with a sign. -/
theorem decode_negativeZero : decode (2 ^ 31) = .zero .negative := rfl

/-- What a packed result without a sign is. -/
theorem atLeast_pack {n : Nat} {f : UnpackedFloat}
    (h : f = .notANumber ∨ (UnpackedFloat.pack Format.binary32 f).toNat ≤ infinityBits
      ∧ n ≤ (UnpackedFloat.pack Format.binary32 f).toNat) :
    AtLeast n (Float32.ofModel (Float32.Model.pack f)) := by
  rcases h with rfl | ⟨hplain, hn⟩
  · exact .inl isNaN_pack
  · exact .inr ⟨hn, hplain⟩

/-- Packing gives the bits back. -/
theorem pack_decode {n : Nat} (h : n ≤ infinityBits) :
    (UnpackedFloat.pack Format.binary32 (decode n)).toNat = n := by
  rcases decode_cases h with ⟨hn, hd⟩ | ⟨m, e, hm, hd, hc, hr, hlt⟩ | ⟨hn, hd⟩
  · rw [hd, hn]
    rfl
  · rw [hd, toNat_pack hm hc, hr]
    omega
  · rw [hd, hn]
    rfl

/-- The sum of two positive numbers, over the lower exponent. -/
theorem add_finite {m m' : Nat} {e e' : Int} (hm : 0 < m) (hm' : 0 < m') :
    UnpackedFloat.add Format.binary32 (.finite .positive m e hm) (.finite .positive m' e' hm')
      = UnpackedFloat.round Format.binary32 .positive
        (m * 2 ^ (e - min e e').toNat + m' * 2 ^ (e' - min e e').toNat) (min e e') := by
  have hpos : 0 < m * 2 ^ (e - min e e').toNat := by positivity
  have hcast : ((m <<< (e - min e e').toNat : Nat) : Int)
        + ((m' <<< (e' - min e e').toNat : Nat) : Int)
      = ((m * 2 ^ (e - min e e').toNat + m' * 2 ^ (e' - min e e').toNat : Nat) : Int) := by
    rw [Nat.shiftLeft_eq, Nat.shiftLeft_eq, Nat.cast_add]
  simp only [UnpackedFloat.add, decreaseExponent, Sign.apply, UnpackedFloat.normalize, hcast]
  rw [compare_gt_iff_gt.mpr (by omega), Int.toNat_natCast]

/-- **A sum of numbers without a sign** is one, no lower than the first. -/
theorem pack_add {a b : Nat} (ha : a ≤ infinityBits) (hb : b ≤ infinityBits) :
    (UnpackedFloat.pack Format.binary32
        (UnpackedFloat.add Format.binary32 (decode a) (decode b))).toNat ≤ infinityBits
      ∧ a ≤ (UnpackedFloat.pack Format.binary32
        (UnpackedFloat.add Format.binary32 (decode a) (decode b))).toNat := by
  have hsame : ∀ {c : Nat}, c ≤ infinityBits → a ≤ c →
      UnpackedFloat.add Format.binary32 (decode a) (decode b) = decode c →
      (UnpackedFloat.pack Format.binary32
          (UnpackedFloat.add Format.binary32 (decode a) (decode b))).toNat ≤ infinityBits
        ∧ a ≤ (UnpackedFloat.pack Format.binary32
          (UnpackedFloat.add Format.binary32 (decode a) (decode b))).toNat := by
    intro c hc hac heq
    rw [heq, pack_decode hc]
    exact ⟨hc, hac⟩
  rcases decode_cases ha with ⟨hz, hda⟩ | ⟨m, e, hm, hda, hc, hr, hlt⟩ | ⟨hi, hda⟩
  · -- zero leaves the other summand
    refine hsame hb (by omega) ?_
    rcases decode_cases hb with ⟨-, hdb⟩ | ⟨m', e', hm', hdb, -⟩ | ⟨-, hdb⟩ <;>
      rw [hda, hdb] <;> rfl
  · rcases decode_cases hb with ⟨hz, hdb⟩ | ⟨m', e', hm', hdb, -⟩ | ⟨hi, hdb⟩
    · refine hsame ha le_rfl ?_
      rw [hda, hdb]
      rfl
    · obtain ⟨m'', e'', h, hround, hc', hrank⟩ := round_le hc (Int.min_le_left e e')
        (Nat.le_add_right _ (m' * 2 ^ (e' - min e e').toNat))
      rw [hda, hdb, add_finite hm hm', hround, toNat_pack h hc']
      omega
    · refine hsame hb (by omega) ?_
      rw [hda, hdb]
      rfl
  · refine hsame ha le_rfl ?_
    rcases decode_cases hb with ⟨-, hdb⟩ | ⟨m', e', hm', hdb, -⟩ | ⟨-, hdb⟩ <;>
      rw [hda, hdb] <;> rfl

/-- A zero with a sign adds nothing. -/
theorem add_negativeZero {a : Nat} (ha : a ≤ infinityBits) :
    UnpackedFloat.add Format.binary32 (decode a) (decode (2 ^ 31)) = decode a := by
  rw [decode_negativeZero]
  rcases decode_cases ha with ⟨-, hda⟩ | ⟨m, e, hm, hda, -⟩ | ⟨-, hda⟩ <;> rw [hda] <;> rfl

/-- **Adding a gain does not lower a number without a sign.** -/
theorem AtLeast.add {n : Nat} {x d : Float32} (hx : AtLeast n x) (hd : Gain d) :
    AtLeast n (x + d) := by
  show AtLeast n (Float32.ofModel (Float32.Model.pack
    (UnpackedFloat.add Format.binary32 x.toModel.unpack d.toModel.unpack)))
  rcases hx with hx | ⟨hn, hx⟩
  · rw [unpack_of_isNaN hx]
    exact .inl isNaN_pack
  · apply atLeast_pack
    rcases hd with hd | hd | hd
    · refine .inl ?_
      rw [unpack_of_isNaN hd]
      cases x.toModel.unpack <;> rfl
    · rw [unpack_toModel, unpack_toModel]
      obtain ⟨hplain, hle⟩ := pack_add hx hd
      exact .inr ⟨hplain, hn.trans hle⟩
    · rw [unpack_toModel, unpack_toModel, hd, add_negativeZero hx, pack_decode hx]
      exact .inr ⟨hx, hn⟩

/-! ### Gains -/

/-- Bits beyond those of infinity are those of no number, of the zero with a sign, or of something
below zero. -/
theorem decode_beyond {n : Nat} (hn : n < 2 ^ 32) (h : infinityBits < n) (hz : n ≠ 2 ^ 31) :
    decode n = .notANumber ∨ decode n = .infinity .negative
      ∨ ∃ m e hm, decode n = .finite .negative m e hm := by
  unfold infinityBits at h
  unfold decode
  simp only
  by_cases hexp : n / 2 ^ 23 % 256 = 255
  · rw [if_pos hexp]
    by_cases hm : n % 2 ^ 23 = 0
    · rw [if_pos hm, if_neg (by omega)]
      exact .inr (.inl rfl)
    · rw [if_neg hm]
      exact .inl rfl
  · have hsign : ¬ n < 2 ^ 31 := by omega
    rw [if_neg hexp]
    simp only [if_neg hsign]
    refine .inr (.inr ?_)
    by_cases hsub : n / 2 ^ 23 % 256 = 0
    · rw [if_pos hsub, dif_neg (by omega)]
      exact ⟨_, _, by omega, rfl⟩
    · rw [if_neg hsub]
      exact ⟨_, _, by omega, rfl⟩

theorem unpack_zero : (0.0 : Float32).toModel.unpack = .zero .positive := by
  rw [unpack_toModel]
  rfl

/-- What is not below zero is a gain. -/
theorem gain_of_not_lt {x : Float32} (h : x.lt 0.0 = false) : Gain x := by
  by_contra hloss
  have hlt : x.lt 0.0 = (x.toModel.unpack.compare (.zero .positive) == some .lt) := by
    rw [← unpack_zero]
    exact Bool.decide_coe _
  have hbeyond : decode x.toBits.toNat = .notANumber ∨ decode x.toBits.toNat = .infinity .negative
      ∨ ∃ m e hm, decode x.toBits.toNat = .finite .negative m e hm := by
    refine decode_beyond x.toBits.toNat_lt ?_ ?_
    · exact Nat.lt_of_not_le fun hle => hloss (.inr (.inl hle))
    · exact fun heq => hloss (.inr (.inr heq))
  rw [← unpack_toModel] at hbeyond
  rcases hbeyond with hx | hx | ⟨m, e, hm, hx⟩
  · have hnan : x.toModel.unpack.isNaN = true := by rw [hx]; rfl
    exact hloss (.inl hnan)
  · rw [hlt, hx] at h
    exact absurd h (by decide)
  · rw [hlt, hx] at h
    exact absurd h (by simp [UnpackedFloat.compare])

/-- What a gain unpacks to. -/
theorem Gain.unpack_cases {x : Float32} (h : Gain x) :
    x.toModel.unpack = .notANumber ∨ (∃ s, x.toModel.unpack = .zero s)
      ∨ (∃ m e hm, x.toModel.unpack = .finite .positive m e hm)
      ∨ x.toModel.unpack = .infinity .positive := by
  rcases h with h | h | h
  · exact .inl (unpack_of_isNaN h)
  · rw [unpack_toModel]
    rcases decode_cases h with ⟨-, hd⟩ | ⟨m, e, hm, hd, -⟩ | ⟨-, hd⟩
    · exact .inr (.inl ⟨_, hd⟩)
    · exact .inr (.inr (.inl ⟨m, e, hm, hd⟩))
    · exact .inr (.inr (.inr hd))
  · rw [unpack_toModel, h]
    exact .inr (.inl ⟨_, decode_negativeZero⟩)

/-- What is packed from a positive number has no sign. -/
theorem pack_positive_le {m : Nat} {e : Int} (hm : 0 < m) :
    (UnpackedFloat.pack Format.binary32 (.finite .positive m e hm)).toNat ≤ infinityBits := by
  unfold UnpackedFloat.pack infinityBits
  simp only
  split
  · exact le_of_eq rfl
  · next hbias =>
      have hlow : (BitVec.ofNat 23 m).toNat < 2 ^ 23 := BitVec.isLt _
      split
      · rw [toNat_packComponents, BitVec.toNat_ofNat]
        have := Nat.mod_le (e + (Format.binary32.exponentBias : Nat) + (23 : Nat)).toNat (2 ^ 8)
        simp [Sign.toBitVec] at *
        omega
      · rw [toNat_packComponents]
        simp [Sign.toBitVec] at *
        omega

/-- What is packed from such a value is a gain. -/
theorem gain_pack {f : UnpackedFloat}
    (h : f = .notANumber ∨ (∃ s, f = .zero s) ∨ (∃ m e hm, f = .finite .positive m e hm)
      ∨ f = .infinity .positive) : Gain (Float32.ofModel (Float32.Model.pack f)) := by
  rcases h with rfl | ⟨s, rfl⟩ | ⟨m, e, hm, rfl⟩ | rfl
  · exact .inl isNaN_pack
  · cases s with
    | positive => exact .inr (.inl (Nat.zero_le _))
    | negative => exact .inr (.inr rfl)
  · exact .inr (.inl (pack_positive_le hm))
  · exact .inr (.inl le_rfl)

/-- A product that is rounded to a number without a sign. -/
theorem roundWithAccuracy_positive (m : Nat) (e : Int) :
    (∃ s, roundWithAccuracy Format.binary32 .positive m e .exact = .zero s)
      ∨ ∃ m' e' h, roundWithAccuracy Format.binary32 .positive m e .exact
        = .finite .positive m' e' h := by
  unfold roundWithAccuracy
  simp only
  split
  · exact .inl ⟨_, rfl⟩
  · next h => exact .inr ⟨_, _, Nat.pos_of_ne_zero h, rfl⟩

/-- **The product of two gains is a gain.** -/
theorem Gain.mul {x y : Float32} (hx : Gain x) (hy : Gain y) : Gain (x * y) := by
  show Gain (Float32.ofModel (Float32.Model.pack
    (UnpackedFloat.mul Format.binary32 x.toModel.unpack y.toModel.unpack)))
  apply gain_pack
  rcases hx.unpack_cases with hx | ⟨s, hx⟩ | ⟨m, e, hm, hx⟩ | hx
  · rw [hx]
    exact .inl rfl
  · rcases hy.unpack_cases with hy | ⟨s', hy⟩ | ⟨m', e', hm', hy⟩ | hy
    · rw [hx, hy]
      exact .inl rfl
    · rw [hx, hy]
      exact .inr (.inl ⟨_, rfl⟩)
    · rw [hx, hy]
      exact .inr (.inl ⟨_, rfl⟩)
    · rw [hx, hy]
      exact .inl rfl
  · rcases hy.unpack_cases with hy | ⟨s', hy⟩ | ⟨m', e', hm', hy⟩ | hy
    · rw [hx, hy]
      exact .inl rfl
    · rw [hx, hy]
      exact .inr (.inl ⟨_, rfl⟩)
    · rw [hx, hy]
      rcases roundWithAccuracy_positive (m * m') (e + e') with h | h
      · exact .inr (.inl h)
      · exact .inr (.inr (.inl h))
    · rw [hx, hy]
      exact .inr (.inr (.inr rfl))
  · rcases hy.unpack_cases with hy | ⟨s', hy⟩ | ⟨m', e', hm', hy⟩ | hy
    · rw [hx, hy]
      exact .inl rfl
    · rw [hx, hy]
      exact .inl rfl
    · rw [hx, hy]
      exact .inr (.inr (.inr rfl))
    · rw [hx, hy]
      exact .inr (.inr (.inr rfl))

end Binary32
