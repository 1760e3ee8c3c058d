/-
How many out-of-band replies an address can get.

The level of an address is the tokens of its bucket at a time, and a full bucket when it has none.
Sweeping forgets a bucket only when it is full, so the level does not show whether an address is
in the table, and a bucket that is made anew has no more in it than the one that was forgotten.
-/
import Baston.Gateway.Oob
import Baston.Lib.RateBound
import Mathlib.Data.Rat.Defs
import Mathlib.Algebra.Order.Ring.Rat
import Mathlib.Algebra.Field.Rat

namespace Baston.Gateway

open Assoc Trace

variable {Ip K : Type} [DecidableEq Ip] [Field K] [LinearOrder K]

/-! ### Buckets -/

theorem saturatingSince_nonneg (now before : K) : 0 ≤ saturatingSince now before :=
  le_max_left _ _

theorem saturatingSince_le [IsStrictOrderedRing K] {t t' : K} (h : t ≤ t') (before : K) :
    saturatingSince t' before ≤ saturatingSince t before + (t' - t) := by
  unfold saturatingSince
  refine max_le ?_ ?_
  · linarith [le_max_left 0 (t - before)]
  · linarith [le_max_right 0 (t - before)]

namespace Bucket

variable {b : Bucket K} {t t' : K}

theorem refilled_nonneg [IsStrictOrderedRing K] (h : 0 ≤ b.tokens) (t : K) : 0 ≤ b.refilled t := by
  have hadded : 0 ≤ saturatingSince t b.last * (OOB_RATE_PER_SEC : K) :=
    mul_nonneg (saturatingSince_nonneg t b.last) (Nat.cast_nonneg _)
  unfold refilled
  linarith

theorem refilled_le [IsStrictOrderedRing K] (h : t ≤ t') (b : Bucket K) :
    b.refilled t' ≤ b.refilled t + (OOB_RATE_PER_SEC : K) * (t' - t) := by
  have hrate : (0 : K) ≤ (OOB_RATE_PER_SEC : K) := Nat.cast_nonneg _
  have hadded := mul_le_mul_of_nonneg_right (saturatingSince_le h b.last) hrate
  unfold refilled
  linarith

/-- A bucket that has just been used. -/
theorem refilled_now (tokens now : K) : (⟨tokens, now⟩ : Bucket K).refilled now = tokens := by
  unfold refilled saturatingSince
  simp

end Bucket

namespace OobRateLimiter

variable {s s' : OobRateLimiter Ip K} {ip ip' : Ip} {now t t' : K}

/-! ### Levels -/

/-- The tokens of an address at a time. -/
def level (s : OobRateLimiter Ip K) (ip : Ip) (t : K) : K :=
  match s.buckets.lookup ip with
  | some b => min (b.refilled t) OOB_BURST
  | none => OOB_BURST

/-- No bucket is over-full or in debt, and the table is bounded. -/
structure Bounded (s : OobRateLimiter Ip K) : Prop where
  tokens : ∀ ip b, s.buckets.lookup ip = some b → 0 ≤ b.tokens ∧ b.tokens ≤ OOB_BURST
  size : s.buckets.keys.length ≤ OOB_MAX_TRACKED_IPS

theorem level_nonneg [IsStrictOrderedRing K] (h : s.Bounded) : 0 ≤ s.level ip t := by
  unfold level
  cases hb : s.buckets.lookup ip with
  | none => exact Nat.cast_nonneg _
  | some b => exact le_min (b.refilled_nonneg (h.tokens ip b hb).1 t) (Nat.cast_nonneg _)

theorem level_le : s.level ip t ≤ OOB_BURST := by
  unfold level
  cases s.buckets.lookup ip with
  | none => exact le_refl _
  | some b => exact min_le_right _ _

theorem level_rises [IsStrictOrderedRing K] (h : t ≤ t') :
    s.level ip t' ≤ s.level ip t + (OOB_RATE_PER_SEC : K) * (t' - t) := by
  have hadded : (0 : K) ≤ (OOB_RATE_PER_SEC : K) * (t' - t) :=
    mul_nonneg (Nat.cast_nonneg _) (sub_nonneg.mpr h)
  unfold level
  cases s.buckets.lookup ip with
  | none =>
      simp only
      linarith
  | some b =>
      simp only
      rw [← min_add_add_right]
      refine min_le_min (b.refilled_le h) ?_
      linarith

/-! ### Sweeping -/

theorem level_maybeSweep : (s.maybeSweep now).level ip now = s.level ip now := by
  unfold maybeSweep
  split
  · rfl
  · unfold level
    simp only [Map.lookup_retain]
    cases s.buckets.lookup ip with
    | none => rfl
    | some b =>
        by_cases hidle : b.refilled now < OOB_BURST
        · rw [Option.filter_some_pos (by simpa using hidle)]
        · rw [Option.filter_some_neg (by simpa using hidle)]
          exact (min_eq_right (not_lt.mp hidle)).symm

theorem Bounded.maybeSweep (h : s.Bounded) (now : K) : (s.maybeSweep now).Bounded := by
  unfold OobRateLimiter.maybeSweep
  split
  · exact h
  · refine ⟨fun ip b hb => ?_, ?_⟩
    · simp only [Map.lookup_retain] at hb
      exact h.tokens ip b (Option.filter_eq_some_iff.mp hb).1
    · refine (List.Sublist.length_le ?_).trans h.size
      exact List.filter_sublist.map _

/-! ### Calls -/

/-- A bucket is put in the table, which had it or has room for it. -/
theorem Bounded.insert (h : s.Bounded) {b : Bucket K}
    (hroom : ¬ (s.buckets.keys.length ≥ OOB_MAX_TRACKED_IPS ∧ ip ∉ s.buckets))
    (htokens : 0 ≤ b.tokens ∧ b.tokens ≤ OOB_BURST) :
    Bounded { s with buckets := s.buckets.insert ip b } := by
  refine ⟨fun ip' b' hb' => ?_, ?_⟩
  · simp only [Map.lookup_insert_of] at hb'
    split at hb'
    · obtain rfl := Option.some.inj hb'
      exact htokens
    · exact h.tokens ip' b' hb'
  · have hsize := h.size
    simp only [AList.keys_insert, List.length_cons]
    by_cases hin : ip ∈ s.buckets
    · rw [List.length_erase_of_mem (AList.mem_keys.mp hin)]
      have hpos := List.length_pos_of_mem (AList.mem_keys.mp hin)
      omega
    · rw [List.erase_of_not_mem (fun hmem => hin (AList.mem_keys.mpr hmem))]
      have hfree : s.buckets.keys.length < OOB_MAX_TRACKED_IPS :=
        not_le.mp fun hfull => hroom ⟨hfull, hin⟩
      omega

/-- The tokens a call finds are the level. -/
theorem found_eq_level :
    min (((s.buckets.lookup ip).getD ⟨OOB_BURST, now⟩).refilled now) OOB_BURST
      = s.level ip now := by
  unfold level
  cases s.buckets.lookup ip with
  | none => rw [Option.getD_none, Bucket.refilled_now, min_self]
  | some b => rfl

theorem level_insert {b : Bucket K} :
    level { s with buckets := s.buckets.insert ip b } ip' t
      = if ip' = ip then min (b.refilled t) OOB_BURST else s.level ip' t := by
  unfold level
  simp only [Map.lookup_insert_of]
  by_cases heq : ip' = ip
  · simp only [heq, if_true]
  · simp only [heq, if_false]

/-- What a call does: it keeps the bounds, and an allowed one pays for itself. -/
theorem allow_spec [IsStrictOrderedRing K] (h : s.Bounded) (ip : Ip) (now : K) :
    (s.allow ip now).1.Bounded ∧ ∀ ip', (s.allow ip now).1.level ip' now
      + (if ip = ip' ∧ (s.allow ip now).2 = true then 1 else 0) = s.level ip' now := by
  have hswept := h.maybeSweep now
  have hlevel : ∀ ip', (s.maybeSweep now).level ip' now = s.level ip' now :=
    fun ip' => level_maybeSweep
  unfold allow
  simp only
  split
  · exact ⟨hswept, fun ip' => by rw [hlevel]; simp⟩
  · next hroom =>
      rw [found_eq_level]
      have hnonneg : 0 ≤ (s.maybeSweep now).level ip now := level_nonneg hswept
      have hfull : (s.maybeSweep now).level ip now ≤ OOB_BURST := level_le
      split
      · next hone =>
          have hpaid : 0 ≤ (s.maybeSweep now).level ip now - 1 := sub_nonneg.mpr hone
          have hleft : (s.maybeSweep now).level ip now - 1 ≤ OOB_BURST := by linarith
          refine ⟨hswept.insert hroom ⟨hpaid, hleft⟩, fun ip' => ?_⟩
          rw [level_insert, Bucket.refilled_now, min_eq_left hleft]
          by_cases heq : ip' = ip
          · subst heq
            rw [if_pos rfl, if_pos ⟨rfl, rfl⟩, hlevel, sub_add_cancel]
          · rw [if_neg heq, if_neg fun hcond => heq hcond.1.symm, add_zero, hlevel]
      · refine ⟨hswept.insert hroom ⟨hnonneg, hfull⟩, fun ip' => ?_⟩
        rw [level_insert, Bucket.refilled_now, min_eq_left hfull]
        simp only [Bool.false_eq_true, and_false, if_false, add_zero]
        split
        · next heq => rw [heq, hlevel]
        · exact hlevel ip'

/-! ### Runs -/

/-- A call of `allow`. -/
structure Probe (Ip K : Type) where
  ip : Ip
  now : K

def step (probe : Probe Ip K) (s : OobRateLimiter Ip K) : Option (OobRateLimiter Ip K × Bool) :=
  some (s.allow probe.ip probe.now)

/-- A reply to the address was allowed. -/
def replied (ip : Ip) (e : Entry (OobRateLimiter Ip K) (Probe Ip K) Bool) : Bool :=
  e.op.ip = ip && e.answer

/-- The limiter is a meter for every address. -/
theorem metered [IsStrictOrderedRing K] (ip : Ip) : Metered (K := K) step Bounded Probe.now (replied ip)
    (fun s t => s.level ip t) OOB_RATE_PER_SEC OOB_BURST where
  kept := fun {s op a s'} h hstep => by
    obtain ⟨rfl, -⟩ := Prod.mk.inj (Option.some.inj hstep)
    exact (allow_spec h op.ip op.now).1
  nonneg := level_nonneg
  full := fun _ => level_le
  rises := fun _ => level_rises
  pays := fun {s op a s'} h hstep => by
    obtain ⟨rfl, rfl⟩ := Prod.mk.inj (Option.some.inj hstep)
    have hspec := (allow_spec h op.ip op.now).2 ip
    unfold replied
    simp only [Bool.and_eq_true, decide_eq_true_eq]
    exact hspec.le

theorem bounded_new (now : K) : (new now : OobRateLimiter Ip K).Bounded := by
  refine ⟨fun ip b hb => ?_, Nat.zero_le _⟩
  have hnone : (new now : OobRateLimiter Ip K).buckets.lookup ip = none := AList.lookup_empty ip
  rw [hnone] at hb
  exact absurd hb (by simp)

/-- **The reflection limit.**  However the table is swept, refilled and filled up, no address gets
more replies in a stretch of time than a full bucket and what is refilled meanwhile. -/
theorem reflection_limited [IsStrictOrderedRing K] {start : K}
    {past : List (Entry (OobRateLimiter Ip K) (Probe Ip K) Bool)} {s : OobRateLimiter Ip K}
    (run : Run step (new start) past s) (htimes : InTime Probe.now past) :
    (∀ ip t T, 0 ≤ T →
      (paidWithin Probe.now (replied ip) t (t + T) past : K) ≤ 5 + 5 * T)
      ∧ (∀ ip b, s.buckets.lookup ip = some b → 0 ≤ b.tokens ∧ b.tokens ≤ 5)
      ∧ s.buckets.keys.length ≤ 8192 := by
  have hbounded : s.Bounded := run.safe (bounded_new start) fun {s op a s'} h hstep => by
    obtain ⟨rfl, -⟩ := Prod.mk.inj (Option.some.inj hstep)
    exact (allow_spec h op.ip op.now).1
  refine ⟨fun ip t T hT => ?_, fun ip b hb => ?_, hbounded.size⟩
  · have hle : t ≤ t + T := le_add_of_nonneg_right hT
    have hpaid := (metered ip).paid_le (Nat.cast_nonneg _) (bounded_new start) hle run htimes
    rw [add_sub_cancel_left] at hpaid
    unfold OOB_BURST OOB_RATE_PER_SEC at hpaid
    exact_mod_cast hpaid
  · have htokens := hbounded.tokens ip b hb
    unfold OOB_BURST at htokens
    exact_mod_cast htokens

/-- Six questions at once get five replies. -/
theorem six_at_once : ∃ past s, Run step (new (0 : ℚ) : OobRateLimiter Nat ℚ) past s
    ∧ paidWithin Probe.now (replied 1) 0 (0 + 0) past = 5
    ∧ (paidWithin Probe.now (replied 1) 0 (0 + 0) past : ℚ) ≤ 5 + 5 * 0 := by
  obtain ⟨past, s, run, hcheck⟩ := exists_run step (new (0 : ℚ) : OobRateLimiter Nat ℚ)
    (List.replicate 6 ⟨1, 0⟩) (fun past _ => decide (
      paidWithin Probe.now (replied 1) 0 (0 + 0) past = 5 ∧ InTime Probe.now past))
    (by decide +kernel)
  obtain ⟨hfive, htimes⟩ := of_decide_eq_true hcheck
  exact ⟨past, s, run, hfive, (reflection_limited run htimes).1 1 0 0 (le_refl 0)⟩

end OobRateLimiter

end Baston.Gateway
