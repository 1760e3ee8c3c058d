/-
The rate the outbound tick runs at (`adaptive_tick.rs`, and the `[state_sync]` section of
`baston-config`).

The controller makes one decision for each completed tick: it backs off at once under load, down
the ladder of rates the configuration leaves, and climbs one rung after enough ticks with room.
The arithmetic is exact, over any ordered field; durations are nanoseconds.
-/
import Mathlib.Algebra.Order.Floor.Semiring
import Mathlib.Algebra.Order.Field.Basic
import Mathlib.Data.List.MinMax

namespace Baston.Zone

/-- `ConfigError::Invalid`. -/
structure ConfigError where
  section_ : String
  reason : String
  deriving DecidableEq

/-- The `[state_sync]` settings that are validated. -/
structure StateSyncConfig (K : Type) where
  aoiRadius : K
  adaptiveTickEnabled : Bool
  /-- Lowest rate selected while overloaded. -/
  tickMinHz : Nat
  tickDefaultHz : Nat
  /-- Hard ceiling. -/
  tickMaxHz : Nat
  tickHighUtilization : K
  tickLowUtilization : K
  /-- Consecutive headroom samples required before the rate goes up. -/
  tickRecoveryWindow : Nat
  /-- Multiplicative rate retained on overload. -/
  tickOverloadBackoff : K
  interestBudgetBytes : Nat
  interestRemoveBudgetBytes : Nat
  interestDistanceWeight : K
  interestClosingWeight : K
  interestStalenessWeight : K
  interestHysteresisM : K

structure AdaptiveTickConfig (K : Type) where
  enabled : Bool
  minHz : Nat
  initialHz : Nat
  maxHz : Nat
  lowUtilization : K
  highUtilization : K
  recoveryWindow : Nat
  overloadBackoff : K

inductive TickRateReason
  | disabled | stable | sustainedHeadroom | workOverload | queuePressure | deadlineMiss
  deriving DecidableEq

structure TickRateDecision (K : Type) where
  previousHz : Nat
  hz : Nat
  utilization : K
  changed : Bool
  reason : TickRateReason

variable {K : Type} [Field K] [LinearOrder K] [FloorSemiring K]

/-! ### The settings -/

namespace StateSyncConfig

def invalid (reason : String) : Except ConfigError Unit := .error ⟨"state_sync", reason⟩

/-- `validate`.  Every exact number is finite. -/
def validate (c : StateSyncConfig K) : Except ConfigError Unit :=
  if c.tickMinHz = 0 ∨ c.tickMinHz > c.tickDefaultHz ∨ c.tickDefaultHz > c.tickMaxHz
      ∨ c.tickMaxHz > 120 then
    invalid ("tick rates must satisfy 1 <= min (" ++ toString c.tickMinHz ++ ") <= default ("
      ++ toString c.tickDefaultHz ++ ") <= max (" ++ toString c.tickMaxHz ++ ") <= 120 Hz")
  else if ¬ (0 ≤ c.tickLowUtilization ∧ c.tickLowUtilization < 1)
      ∨ ¬ (0 ≤ c.tickHighUtilization ∧ c.tickHighUtilization ≤ 1)
      ∨ c.tickLowUtilization ≥ c.tickHighUtilization then
    invalid "tick utilization thresholds must satisfy 0 <= low < high <= 1"
  else if ¬ (0 ≤ c.tickOverloadBackoff ∧ c.tickOverloadBackoff < 1) then
    invalid "tick_overload_backoff must be greater than 0 and less than 1"
  else if c.tickRecoveryWindow = 0 ∨ c.interestBudgetBytes = 0 ∨ c.interestRemoveBudgetBytes = 0
      ∨ c.aoiRadius ≤ 0 ∨ c.interestHysteresisM < 0 then
    invalid ("recovery window, budgets and AoI must be positive; " ++
      "hysteresis must be finite and non-negative")
  else
    [("interest_distance_weight", c.interestDistanceWeight),
      ("interest_closing_weight", c.interestClosingWeight),
      ("interest_staleness_weight", c.interestStalenessWeight)].forM fun (name, value) =>
        if value < 0 then invalid (name ++ " must be finite and non-negative") else .ok ()

/-- `AdaptiveTickConfig::from`. -/
def adaptiveTick (c : StateSyncConfig K) : AdaptiveTickConfig K where
  enabled := c.adaptiveTickEnabled
  minHz := c.tickMinHz
  initialHz := c.tickDefaultHz
  maxHz := c.tickMaxHz
  lowUtilization := c.tickLowUtilization
  highUtilization := c.tickHighUtilization
  recoveryWindow := c.tickRecoveryWindow
  overloadBackoff := c.tickOverloadBackoff

end StateSyncConfig

/-! ### The ladder -/

def safeRatesHz : List Nat := [20, 30, 40, 60, 90, 120]

def rates (minHz maxHz : Nat) : List Nat := safeRatesHz.filter fun hz => minHz ≤ hz ∧ hz ≤ maxHz

def absDiff (a b : Nat) : Nat := max a b - min a b

/-- The first of the nearest rates. -/
def nearestRate (requested minHz maxHz : Nat) : Nat :=
  ((rates minHz maxHz).argmin fun hz => absDiff hz requested).getD
    (max minHz (min requested maxHz))

def lowerRate (target minHz maxHz : Nat) : Nat :=
  ((rates minHz maxHz).filter fun hz => hz ≤ target).getLast?.getD minHz

def nextRate (current minHz maxHz : Nat) : Nat :=
  ((rates minHz maxHz).find? fun hz => hz > current).getD current

/-! ### The controller -/

structure AdaptiveTickController (K : Type) where
  cfg : AdaptiveTickConfig K
  currentHz : Nat
  ewmaUtilization : Option K
  headroomSamples : Nat

namespace AdaptiveTickController

def new (cfg : AdaptiveTickConfig K) : AdaptiveTickController K :=
  ⟨cfg, nearestRate cfg.initialHz cfg.minHz cfg.maxHz, none, 0⟩

/-- One period, to the nearest nanosecond. -/
def period (c : AdaptiveTickController K) : Nat := (2 * 10 ^ 9 + c.currentHz) / (2 * c.currentHz)

def asSecs (nanos : Nat) : K := nanos / (10 ^ 9 : Nat)

/-- The part of a period that the work took. -/
def sample (c : AdaptiveTickController K) (work : Nat) : K := asSecs work / asSecs c.period

/-- The utilization with one more sample in it. -/
def smoothed (c : AdaptiveTickController K) (sample : K) : K :=
  match c.ewmaUtilization with
  | some previous => previous + 1 / 8 * (sample - previous)
  | none => sample

def overloadReason (cfg : AdaptiveTickConfig K) (missedDeadline : Bool)
    (pressure sample utilization : K) : Option TickRateReason :=
  if missedDeadline then some .deadlineMiss
  else if pressure ≥ cfg.highUtilization then some .queuePressure
  else if sample ≥ 1 ∨ utilization ≥ cfg.highUtilization then some .workOverload
  else none

def decision (c : AdaptiveTickController K) (previousHz : Nat) (utilization : K)
    (reason : TickRateReason) : TickRateDecision K :=
  ⟨previousHz, c.currentHz, utilization, previousHz != c.currentHz, reason⟩

/-- `x as u16`. -/
def toU16 (x : K) : Nat := min ⌊x⌋₊ (2 ^ 16 - 1)

/-- Observe the work done in one scheduled period. -/
def observe (c : AdaptiveTickController K) (work : Nat) (queuePressure : K)
    (missedDeadline : Bool) : AdaptiveTickController K × TickRateDecision K :=
  let previousHz := c.currentHz
  let sample := c.sample work
  let utilization := c.smoothed sample
  let c := { c with ewmaUtilization := some utilization }
  if c.cfg.enabled = false then (c, c.decision previousHz utilization .disabled)
  else
    let pressure := max 0 (min queuePressure 1)
    match overloadReason c.cfg missedDeadline pressure sample utilization with
    | some reason =>
      let target := toU16 (c.currentHz * c.cfg.overloadBackoff)
      let c := { c with
        headroomSamples := 0
        currentHz := lowerRate target c.cfg.minHz c.cfg.maxHz }
      (c, c.decision previousHz utilization reason)
    | none =>
      if utilization ≤ c.cfg.lowUtilization ∧ pressure ≤ c.cfg.lowUtilization then
        let headroomSamples := min (c.headroomSamples + 1) (2 ^ 32 - 1)
        if headroomSamples ≥ c.cfg.recoveryWindow then
          let c := { c with
            headroomSamples := 0
            currentHz := nextRate c.currentHz c.cfg.minHz c.cfg.maxHz }
          (c, c.decision previousHz utilization .sustainedHeadroom)
        else
          let c := { c with headroomSamples := headroomSamples }
          (c, c.decision previousHz utilization .stable)
      else
        let c := { c with headroomSamples := 0 }
        (c, c.decision previousHz utilization .stable)

end AdaptiveTickController

end Baston.Zone
