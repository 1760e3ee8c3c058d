/-
What a meter lets through in a stretch of time.

A meter has a level between nothing and its burst, which rises at a rate while time goes by and
falls by one for each thing that is let through.  Whatever else happens to it, in a stretch of
time it lets through no more than a full level and what the rate adds meanwhile.
-/
import Mathlib.Algebra.Order.Field.Basic
import Mathlib.Tactic.Linarith
import Baston.Lib.Trace

namespace Trace

variable {σ ι ο K : Type} [Field K] [LinearOrder K] [IsStrictOrderedRing K]

/-- A system with a meter in it: `level` at a time, and the steps that `paid`. -/
structure Metered (step : ι → σ → Option (σ × ο)) (I : σ → Prop) (time : ι → K)
    (paid : Entry σ ι ο → Bool) (level : σ → K → K) (rate burst : K) : Prop where
  kept : ∀ {s op a s'}, I s → step op s = some (s', a) → I s'
  nonneg : ∀ {s t}, I s → 0 ≤ level s t
  full : ∀ {s t}, I s → level s t ≤ burst
  rises : ∀ {s t t'}, I s → t ≤ t' → level s t' ≤ level s t + rate * (t' - t)
  pays : ∀ {s op a s'}, I s → step op s = some (s', a) →
    level s' (time op) + (if paid ⟨s, op, a, s'⟩ then 1 else 0) ≤ level s (time op)

/-- The entries come in the order of their times. -/
def InTime (time : ι → K) (past : List (Entry σ ι ο)) : Prop :=
  past.Pairwise fun later earlier => time earlier.op ≤ time later.op

instance (time : ι → K) (past : List (Entry σ ι ο)) : Decidable (InTime time past) :=
  inferInstanceAs (Decidable (past.Pairwise fun later earlier => time earlier.op ≤ time later.op))

variable {step : ι → σ → Option (σ × ο)} {init : σ} {I : σ → Prop} {time : ι → K}
  {paid : Entry σ ι ο → Bool} {level : σ → K → K} {rate burst : K}
  {past : List (Entry σ ι ο)} {s : σ}

/-- How many steps from a time on have paid. -/
def paidSince (time : ι → K) (paid : Entry σ ι ο → Bool) (start : K)
    (past : List (Entry σ ι ο)) : Nat :=
  past.countP fun e => paid e && decide (start ≤ time e.op)

/-- How many steps in a stretch of time have paid. -/
def paidWithin (time : ι → K) (paid : Entry σ ι ο → Bool) (start stop : K)
    (past : List (Entry σ ι ο)) : Nat :=
  past.countP fun e => paid e && decide (start ≤ time e.op ∧ time e.op ≤ stop)

omit [Field K] [IsStrictOrderedRing K] in
theorem paidSince_eq_zero {start : K} (h : ∀ e ∈ past, time e.op < start) :
    paidSince time paid start past = 0 := by
  unfold paidSince
  rw [List.countP_eq_zero]
  intro e he
  simp [h e he]

omit [Field K] [IsStrictOrderedRing K] in
/-- Nothing is later than what is last. -/
theorem paidWithin_eq_paidSince {start stop : K} (h : ∀ e ∈ past, time e.op ≤ stop) :
    paidWithin time paid start stop past = paidSince time paid start past := by
  unfold paidWithin paidSince
  refine List.countP_congr fun e he => ?_
  simp [h e he]

namespace Metered

/-- What was paid since a time, and the level that is left. -/
theorem spent (h : Metered step I time paid level rate burst) (hrate : 0 ≤ rate) (h0 : I init)
    (start : K) (run : Run step init past s) : InTime time past →
      I s ∧ ∀ now, start ≤ now → (∀ e ∈ past, time e.op ≤ now) →
        paidSince time paid start past + level s now ≤ burst + rate * (now - start) := by
  have hfull : ∀ {s now}, I s → start ≤ now → level s now ≤ burst + rate * (now - start) := by
    intro s now hI hnow
    have hadded := mul_nonneg hrate (sub_nonneg.mpr hnow)
    have := h.full (t := now) hI
    linarith
  induction run with
  | nil =>
      intro _
      refine ⟨h0, fun now hnow _ => ?_⟩
      rw [paidSince_eq_zero (fun e he => absurd he List.not_mem_nil), Nat.cast_zero, zero_add]
      exact hfull h0 hnow
  | @snoc past s s' op a run hstep ih =>
      intro htime
      obtain ⟨hlast, htime⟩ := List.pairwise_cons.mp htime
      obtain ⟨hI, hspent⟩ := ih htime
      have hI' := h.kept hI hstep
      refine ⟨hI', fun now hnow hbefore => ?_⟩
      have hop : time op ≤ now := hbefore _ List.mem_cons_self
      by_cases hin : start ≤ time op
      · -- the level of before pays for this step, and has risen since
        have hthen := hspent (time op) hin hlast
        have hpays := h.pays hI hstep
        have hrises := h.rises hI' hop
        have hcount : (paidSince time paid start (⟨s, op, a, s'⟩ :: past) : K)
            = paidSince time paid start past + if paid ⟨s, op, a, s'⟩ then 1 else 0 := by
          unfold paidSince
          rw [List.countP_cons]
          simp [hin]
        rw [hcount]
        linarith [hthen, hpays, hrises]
      · rw [paidSince_eq_zero, Nat.cast_zero, zero_add]
        · exact hfull hI' hnow
        · intro e he
          rcases List.mem_cons.mp he with rfl | he
          · exact not_le.mp hin
          · exact lt_of_le_of_lt (hlast e he) (not_le.mp hin)

/-- **The bound.**  No stretch of time sees more than a full level and what is added in it. -/
theorem paid_le (h : Metered step I time paid level rate burst) (hrate : 0 ≤ rate) (h0 : I init)
    {start stop : K} (hle : start ≤ stop) (run : Run step init past s) : InTime time past →
      (paidWithin time paid start stop past : K) ≤ burst + rate * (stop - start) := by
  induction run with
  | nil =>
      intro _
      have hburst := (h.nonneg h0).trans (h.full (t := start) h0)
      have hadded := mul_nonneg hrate (sub_nonneg.mpr hle)
      unfold paidWithin
      rw [List.countP_nil, Nat.cast_zero]
      linarith
  | @snoc past s s' op a run hstep ih =>
      intro htime
      obtain ⟨hlast, htime'⟩ := List.pairwise_cons.mp htime
      by_cases hin : time op ≤ stop
      · have hbefore : ∀ e ∈ (⟨s, op, a, s'⟩ :: past : List (Entry σ ι ο)), time e.op ≤ stop :=
          List.forall_mem_cons.mpr ⟨hin, fun e he => (hlast e he).trans hin⟩
        obtain ⟨hI', hspent⟩ := h.spent hrate h0 start (run.snoc hstep) htime
        have hsum := hspent stop hle hbefore
        have hnonneg := h.nonneg (t := stop) hI'
        rw [paidWithin_eq_paidSince hbefore]
        linarith
      · have hcount : paidWithin time paid start stop (⟨s, op, a, s'⟩ :: past)
            = paidWithin time paid start stop past := by
          unfold paidWithin
          rw [List.countP_cons_of_neg]
          simp [hin]
        rw [hcount]
        exact ih htime'

end Metered

end Trace
