/-
The bounds of the adaptive tick.

What one observation does is said once, in five cases.  The rate stays between the configured
bounds because every rung of the ladder does and so does what stands in for a rung that is not
there, and the count of samples never runs ahead of the ticks with room that it counts.
-/
import Mathlib.Data.Rat.Floor
import Baston.Lib.Trace
import Baston.Zone.AdaptiveTick

namespace Baston.Zone

open Trace

/-! ### The ladder -/

variable {minHz maxHz r : Nat}

theorem mem_rates (h : r ∈ rates minHz maxHz) : minHz ≤ r ∧ r ≤ maxHz := by
  unfold rates at h
  simpa using (List.mem_filter.mp h).2

theorem rates_ascending : (rates minHz maxHz).Pairwise (· < ·) := by
  have hsafe : safeRatesHz.Pairwise (· < ·) := by decide
  exact hsafe.filter _

theorem nearestRate_within (requested : Nat) (h : minHz ≤ maxHz) :
    minHz ≤ nearestRate requested minHz maxHz ∧ nearestRate requested minHz maxHz ≤ maxHz := by
  unfold nearestRate
  cases hnear : (rates minHz maxHz).argmin fun hz => absDiff hz requested with
  | none =>
      rw [Option.getD_none]
      omega
  | some hz => exact mem_rates (List.argmin_mem hnear)

/-- The rate to fall back to is not above the target, if that leaves one. -/
theorem lowerRate_spec (target : Nat) (h : minHz ≤ maxHz) :
    minHz ≤ lowerRate target minHz maxHz ∧ lowerRate target minHz maxHz ≤ maxHz
      ∧ (lowerRate target minHz maxHz ≤ target ∨ lowerRate target minHz maxHz = minHz) := by
  unfold lowerRate
  cases hlast : ((rates minHz maxHz).filter fun hz => hz ≤ target).getLast? with
  | none => exact ⟨Nat.le_refl _, h, .inr rfl⟩
  | some hz =>
      obtain ⟨hmem, hle⟩ := List.mem_filter.mp (List.mem_of_getLast? hlast)
      obtain ⟨hmin, hmax⟩ := mem_rates hmem
      exact ⟨hmin, hmax, .inl (by simpa using hle)⟩

/-- The next rate on the ladder. -/
structure NextRate (minHz maxHz current next : Nat) : Prop where
  allowed : next ∈ rates minHz maxHz
  above : current < next
  least : ∀ hz ∈ rates minHz maxHz, current < hz → next ≤ hz

theorem nextRate_spec (minHz maxHz current : Nat) : nextRate current minHz maxHz = current
    ∨ NextRate minHz maxHz current (nextRate current minHz maxHz) := by
  unfold nextRate
  cases hfind : (rates minHz maxHz).find? fun hz => hz > current with
  | none => exact .inl rfl
  | some next =>
      refine .inr ⟨List.mem_of_find?_eq_some hfind, by simpa using List.find?_some hfind, ?_⟩
      obtain ⟨-, before, after, hsplit, hbefore⟩ := List.find?_eq_some_iff_append.mp hfind
      have hasc : (rates minHz maxHz).Pairwise (· < ·) := rates_ascending
      intro hz hmem hgt
      rw [hsplit] at hmem hasc
      rcases List.mem_append.mp hmem with hmem | hmem
      · have := hbefore hz hmem
        simp at this
        omega
      · rcases List.mem_cons.mp hmem with rfl | hmem
        · exact Nat.le_refl _
        · have hrest := (List.pairwise_append.mp hasc).2.1
          exact Nat.le_of_lt ((List.pairwise_cons.mp hrest).1 hz hmem)

/-! ### Settings that are accepted -/

variable {K : Type} [Field K] [LinearOrder K] [FloorSemiring K]

/-- What the controller needs of its settings. -/
structure Ordered (cfg : AdaptiveTickConfig K) : Prop where
  positive : 0 < cfg.minHz
  initial : cfg.minHz ≤ cfg.initialHz
  ceiling : cfg.initialHz ≤ cfg.maxHz
  backoff : 0 ≤ cfg.overloadBackoff
  shrinks : cfg.overloadBackoff < 1

omit [FloorSemiring K] in
theorem ordered_of_validate {sync : StateSyncConfig K} (h : sync.validate = .ok ()) :
    Ordered sync.adaptiveTick := by
  have hrefused : ∀ reason, StateSyncConfig.invalid reason ≠ .ok () := by
    simp [StateSyncConfig.invalid]
  unfold StateSyncConfig.validate at h
  split at h
  · exact absurd h (hrefused _)
  · next hrates =>
      split at h
      · exact absurd h (hrefused _)
      · split at h
        · exact absurd h (hrefused _)
        · next hbackoff =>
            push Not at hrates hbackoff
            obtain ⟨hzero, hmin, hmax, -⟩ := hrates
            exact ⟨Nat.pos_of_ne_zero hzero, hmin, hmax, hbackoff.1, hbackoff.2⟩

/-! ### One observation -/

/-- What the controller is told of one tick. -/
structure Observation (K : Type) where
  /-- In nanoseconds. -/
  work : Nat
  queuePressure : K
  missedDeadline : Bool

def Observation.pressure (o : Observation K) : K := max 0 (min o.queuePressure 1)

namespace AdaptiveTickController

/-- The utilization, as smoothed with the work of this tick. -/
def utilizationWith (c : AdaptiveTickController K) (o : Observation K) : K :=
  c.smoothed (c.sample o.work)

/-- The tick missed its deadline, or the queue or the work is too much. -/
def Overloaded (c : AdaptiveTickController K) (o : Observation K) : Prop :=
  c.cfg.enabled = true ∧ (o.missedDeadline = true ∨ c.cfg.highUtilization ≤ o.pressure
    ∨ 1 ≤ c.sample o.work ∨ c.cfg.highUtilization ≤ c.utilizationWith o)

/-- The tick has room. -/
def Headroom (c : AdaptiveTickController K) (o : Observation K) : Prop :=
  c.cfg.enabled = true ∧ ¬ c.Overloaded o ∧ c.utilizationWith o ≤ c.cfg.lowUtilization
    ∧ o.pressure ≤ c.cfg.lowUtilization

instance (c : AdaptiveTickController K) (o : Observation K) : Decidable (c.Overloaded o) := by
  unfold Overloaded
  infer_instance

instance (c : AdaptiveTickController K) (o : Observation K) : Decidable (c.Headroom o) := by
  unfold Headroom
  infer_instance

def step (o : Observation K) (c : AdaptiveTickController K) :
    Option (AdaptiveTickController K × TickRateDecision K) :=
  some (c.observe o.work o.queuePressure o.missedDeadline)

variable {c c' : AdaptiveTickController K} {o : Observation K}

omit [FloorSemiring K] in
theorem overloadReason_isSome (henabled : c.cfg.enabled = true) :
    (overloadReason c.cfg o.missedDeadline o.pressure (c.sample o.work)
      (c.utilizationWith o)).isSome = true ↔ c.Overloaded o := by
  unfold overloadReason Overloaded
  simp only [henabled, true_and]
  split
  · next h => exact iff_of_true rfl (.inl h)
  · next hmissed =>
      split
      · next h => exact iff_of_true rfl (.inr (.inl h))
      · next hpressure =>
          split
          · next h => exact iff_of_true rfl (.inr (.inr h))
          · next hwork => exact iff_of_false (by simp) (by tauto)

/-- What an observation makes of the rate and the count. -/
inductive Turn (c : AdaptiveTickController K) (o : Observation K) : Nat → Nat → Prop
  | disabled : c.cfg.enabled = false → Turn c o c.currentHz c.headroomSamples
  | backsOff : c.Overloaded o →
      Turn c o (lowerRate (toU16 (c.currentHz * c.cfg.overloadBackoff)) c.cfg.minHz c.cfg.maxHz) 0
  | climbs : c.Headroom o → c.cfg.recoveryWindow ≤ min (c.headroomSamples + 1) (2 ^ 32 - 1) →
      Turn c o (nextRate c.currentHz c.cfg.minHz c.cfg.maxHz) 0
  | counts : c.Headroom o → Turn c o c.currentHz (min (c.headroomSamples + 1) (2 ^ 32 - 1))
  | holds : ¬ c.Overloaded o → ¬ c.Headroom o → Turn c o c.currentHz 0

theorem observe_turn {answer : TickRateDecision K} (h : step o c = some (c', answer)) :
    c'.cfg = c.cfg ∧ c.Turn o c'.currentHz c'.headroomSamples := by
  obtain rfl : c' = (c.observe o.work o.queuePressure o.missedDeadline).1 :=
    (congrArg Prod.fst (Option.some.inj h)).symm
  unfold observe
  simp only
  split
  · next hdisabled => exact ⟨rfl, .disabled hdisabled⟩
  · next hnot =>
      have henabled : c.cfg.enabled = true := by simpa using hnot
      have hreason := overloadReason_isSome (o := o) henabled
      unfold utilizationWith Observation.pressure at hreason
      split
      · next reason heq =>
          rw [heq] at hreason
          exact ⟨rfl, .backsOff (hreason.mp rfl)⟩
      · next heq =>
          rw [heq] at hreason
          have hcalm : ¬ c.Overloaded o := fun h => by simpa using hreason.mpr h
          split
          · next hroom =>
              have hheadroom : c.Headroom o := ⟨henabled, hcalm, hroom.1, hroom.2⟩
              split
              · next hwindow => exact ⟨rfl, .climbs hheadroom hwindow⟩
              · exact ⟨rfl, .counts hheadroom⟩
          · next hbusy => exact ⟨rfl, .holds hcalm fun h => hbusy ⟨h.2.2.1, h.2.2.2⟩⟩

/-! ### Runs -/

variable {cfg : AdaptiveTickConfig K}
  {past : List (Entry (AdaptiveTickController K) (Observation K) (TickRateDecision K))}

/-- The ticks with room in a row, since the rate last changed. -/
def streak : List (Entry (AdaptiveTickController K) (Observation K) (TickRateDecision K)) → Nat
  | [] => 0
  | e :: past =>
    if e.pre.Headroom e.op ∧ e.post.currentHz = e.pre.currentHz then streak past + 1 else 0

/-- The settings are the ones it was made with, the rate is within bounds, and no more ticks are
counted than had room. -/
structure Governed (cfg : AdaptiveTickConfig K)
    (past : List (Entry (AdaptiveTickController K) (Observation K) (TickRateDecision K)))
    (c : AdaptiveTickController K) : Prop where
  settings : c.cfg = cfg
  floor : cfg.minHz ≤ c.currentHz
  ceiling : c.currentHz ≤ cfg.maxHz
  counted : cfg.enabled = true → c.headroomSamples ≤ streak past

omit [FloorSemiring K] in
theorem governed_new (hordered : Ordered cfg) : Governed cfg [] (new cfg) := by
  have hle := Nat.le_trans hordered.initial hordered.ceiling
  obtain ⟨hfloor, hceiling⟩ := nearestRate_within cfg.initialHz hle
  exact ⟨rfl, hfloor, hceiling, fun _ => Nat.le_refl _⟩

theorem Governed.observe (h : Governed cfg past c) (hordered : Ordered cfg)
    {answer : TickRateDecision K} (hstep : step o c = some (c', answer)) :
    Governed cfg (⟨c, o, answer, c'⟩ :: past) c' := by
  obtain ⟨hcfg, hturn⟩ := observe_turn hstep
  have hle := Nat.le_trans hordered.initial hordered.ceiling
  have hsettings := hcfg.trans h.settings
  have hfloor := h.floor
  have hceiling := h.ceiling
  have hcounted := h.counted
  generalize hhz : c'.currentHz = hz at hturn
  generalize hsamples : c'.headroomSamples = samples at hturn
  have hwithin : cfg.minHz ≤ hz ∧ hz ≤ cfg.maxHz := by
    cases hturn with
    | disabled _ => exact ⟨hfloor, hceiling⟩
    | backsOff _ =>
        rw [h.settings]
        obtain ⟨hmin, hmax, -⟩ := lowerRate_spec _ hle
        exact ⟨hmin, hmax⟩
    | climbs _ _ =>
        rw [h.settings]
        rcases nextRate_spec cfg.minHz cfg.maxHz c.currentHz with heq | hnext
        · rw [heq]
          exact ⟨hfloor, hceiling⟩
        · exact mem_rates hnext.allowed
    | counts _ => exact ⟨hfloor, hceiling⟩
    | holds _ _ => exact ⟨hfloor, hceiling⟩
  refine ⟨hsettings, hhz ▸ hwithin.1, hhz ▸ hwithin.2, fun henabled => ?_⟩
  rw [hsamples]
  unfold streak
  simp only
  rw [hhz]
  cases hturn with
  | disabled hdisabled =>
      rw [h.settings, henabled] at hdisabled
      exact Bool.noConfusion hdisabled
  | backsOff _ => exact Nat.zero_le _
  | climbs _ _ => exact Nat.zero_le _
  | counts hroom =>
      rw [if_pos ⟨hroom, rfl⟩]
      have := hcounted henabled
      omega
  | holds _ _ => exact Nat.zero_le _

/-- Under load the rate goes down, or is as low as it gets. -/
theorem lowered_of_overloaded [IsStrictOrderedRing K] (h : Governed cfg past c)
    (hordered : Ordered cfg) {answer : TickRateDecision K} (hstep : step o c = some (c', answer))
    (hload : c.Overloaded o) :
    c'.currentHz < c.currentHz ∨ (c.currentHz = cfg.minHz ∧ c'.currentHz = cfg.minHz) := by
  obtain ⟨-, hturn⟩ := observe_turn hstep
  have hpos : 0 < c.currentHz := Nat.lt_of_lt_of_le hordered.positive h.floor
  have hfloor := h.floor
  have hle := Nat.le_trans hordered.initial hordered.ceiling
  -- the backoff is below one, so the target is below the rate
  have htarget : toU16 ((c.currentHz : K) * c.cfg.overloadBackoff) < c.currentHz := by
    have hposK : (0 : K) < c.currentHz := by exact_mod_cast hpos
    have hnonneg : (0 : K) ≤ c.currentHz * c.cfg.overloadBackoff := by
      rw [h.settings]
      exact mul_nonneg hposK.le hordered.backoff
    have hless : (c.currentHz : K) * c.cfg.overloadBackoff < c.currentHz := by
      rw [h.settings]
      exact mul_lt_of_lt_one_right hposK hordered.shrinks
    have hfloorLt : ⌊(c.currentHz : K) * c.cfg.overloadBackoff⌋₊ < c.currentHz :=
      (Nat.floor_lt hnonneg).mpr hless
    unfold toU16
    omega
  generalize hhz : c'.currentHz = hz at hturn
  generalize c'.headroomSamples = samples at hturn
  cases hturn with
  | disabled hdisabled => exact absurd hload.1 (by simp [hdisabled])
  | backsOff _ =>
      rw [h.settings] at htarget ⊢
      rcases (lowerRate_spec (toU16 ((c.currentHz : K) * cfg.overloadBackoff)) hle).2.2
        with hlower | hmin
      · exact .inl (Nat.lt_of_le_of_lt hlower htarget)
      · rw [hmin]
        omega
  | climbs hroom _ => exact absurd hload hroom.2.1
  | counts hroom => exact absurd hload hroom.2.1
  | holds hcalm _ => exact absurd hload hcalm

/-- The rate goes up only after enough ticks with room in a row, and by one rung. -/
theorem raised_after_headroom [IsStrictOrderedRing K] (h : Governed cfg past c)
    (hordered : Ordered cfg) {answer : TickRateDecision K} (hstep : step o c = some (c', answer))
    (hraised : c.currentHz < c'.currentHz) :
    c.Headroom o ∧ cfg.recoveryWindow ≤ streak past + 1
      ∧ NextRate cfg.minHz cfg.maxHz c.currentHz c'.currentHz := by
  obtain ⟨-, hturn⟩ := observe_turn hstep
  have hlowered := lowered_of_overloaded h hordered hstep
  generalize hhz : c'.currentHz = hz at hturn hraised hlowered
  generalize c'.headroomSamples = samples at hturn
  cases hturn with
  | disabled _ => exact absurd hraised (Nat.lt_irrefl _)
  | backsOff hload =>
      have := hlowered hload
      omega
  | climbs hroom hwindow =>
      rw [h.settings] at hwindow hraised ⊢
      have henabled : cfg.enabled = true := h.settings ▸ hroom.1
      have hcounted := h.counted henabled
      refine ⟨hroom, by omega, ?_⟩
      rcases nextRate_spec cfg.minHz cfg.maxHz c.currentHz with heq | hnext
      · rw [heq] at hraised
        exact absurd hraised (Nat.lt_irrefl _)
      · exact hnext
  | counts _ => exact absurd hraised (Nat.lt_irrefl _)
  | holds _ _ => exact absurd hraised (Nat.lt_irrefl _)

theorem kept_of_disabled (h : Governed cfg past c) {answer : TickRateDecision K}
    (hstep : step o c = some (c', answer)) (hdisabled : cfg.enabled = false) :
    c'.currentHz = c.currentHz := by
  obtain ⟨-, hturn⟩ := observe_turn hstep
  have hoff : c.cfg.enabled ≠ true := by simp [h.settings, hdisabled]
  generalize c'.currentHz = hz at hturn
  generalize c'.headroomSamples = samples at hturn
  cases hturn with
  | disabled _ => rfl
  | backsOff hload => exact absurd hload.1 hoff
  | climbs hroom _ => exact absurd hroom.1 hoff
  | counts _ => rfl
  | holds _ _ => rfl

/-- What is true of every observation of a run. -/
structure Steered (cfg : AdaptiveTickConfig K)
    (past : List (Entry (AdaptiveTickController K) (Observation K) (TickRateDecision K)))
    (e : Entry (AdaptiveTickController K) (Observation K) (TickRateDecision K)) : Prop where
  lowered : e.pre.Overloaded e.op →
    e.post.currentHz < e.pre.currentHz ∨ e.pre.currentHz = cfg.minHz
  raised : e.pre.currentHz < e.post.currentHz →
    e.pre.Headroom e.op ∧ cfg.recoveryWindow ≤ streak past + 1
      ∧ NextRate cfg.minHz cfg.maxHz e.pre.currentHz e.post.currentHz
  kept : cfg.enabled = false → e.post.currentHz = e.pre.currentHz

theorem run_governed [IsStrictOrderedRing K] (hordered : Ordered cfg)
    (run : Run step (new cfg) past c) : Governed cfg past c ∧ Along (Steered cfg) past := by
  induction run with
  | nil => exact ⟨governed_new hordered, trivial⟩
  | snoc run hstep ih =>
      obtain ⟨h, along⟩ := ih
      refine ⟨h.observe hordered hstep, ⟨fun hload => ?_, ?_, ?_⟩, along⟩
      · exact (lowered_of_overloaded h hordered hstep hload).imp_right And.left
      · exact raised_after_headroom h hordered hstep
      · exact kept_of_disabled h hstep

/-- **The tick rate stays in bounds**, whatever is observed: load lowers it at once, only a row of
ticks with room raises it, and a controller that is off leaves it alone. -/
theorem tick_rate_in_bounds [IsStrictOrderedRing K] (sync : StateSyncConfig K)
    (hvalid : sync.validate = .ok ()) (run : Run step (new sync.adaptiveTick) past c) :
    (sync.tickMinHz ≤ c.currentHz ∧ c.currentHz ≤ sync.tickMaxHz ∧ 0 < c.currentHz)
      ∧ Along (Steered sync.adaptiveTick) past := by
  have hordered := ordered_of_validate hvalid
  obtain ⟨h, along⟩ := run_governed hordered run
  exact ⟨⟨h.floor, h.ceiling, Nat.lt_of_lt_of_le hordered.positive h.floor⟩, along⟩

/-- The default settings, with a window of two ticks. -/
def twoTicks : StateSyncConfig ℚ where
  aoiRadius := 450
  adaptiveTickEnabled := true
  tickMinHz := 20
  tickDefaultHz := 60
  tickMaxHz := 120
  tickHighUtilization := 17 / 20
  tickLowUtilization := 1 / 2
  tickRecoveryWindow := 2
  tickOverloadBackoff := 1 / 2
  interestBudgetBytes := 1
  interestRemoveBudgetBytes := 1
  interestDistanceWeight := 1
  interestClosingWeight := 1
  interestStalenessWeight := 1
  interestHysteresisM := 0

/-- Up to 90 after two ticks with room, and down again when one misses its deadline. -/
theorem two_ticks_climb : ∃ past c, Run step (new twoTicks.adaptiveTick) past c
    ∧ c.currentHz = 40 ∧ (twoTicks.tickMinHz ≤ c.currentHz ∧ c.currentHz ≤ twoTicks.tickMaxHz
      ∧ 0 < c.currentHz) ∧ Along (Steered twoTicks.adaptiveTick) past := by
  obtain ⟨past, c, run, hrate⟩ := exists_run step (new twoTicks.adaptiveTick)
    [⟨10 ^ 6, 0, false⟩, ⟨10 ^ 6, 0, false⟩, ⟨10 ^ 6, 0, true⟩]
    (fun _ c => c.currentHz = 40) (by decide +kernel)
  exact ⟨past, c, run, of_decide_eq_true hrate,
    tick_rate_in_bounds twoTicks (by decide +kernel) run⟩

end AdaptiveTickController

end Baston.Zone
