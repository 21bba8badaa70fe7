import EdgeFlow.Runtime.StateEngine

/-!
# The state engine without an alarm pointer

A caller that has no use for alarms passes `NULL`. The two tests that keep a battery from
discharging, over temperature and low SOC, return early *inside* `alarm != NULL`, so that caller
gets a different engine: a hot cell sets FAULT and falls through to the strategy, which sets
RUNNING again and may order a discharge. This file says on which calls the pointer makes no
difference.
-/

set_option autoImplicit false

namespace EdgeFlow
namespace Proof

open Lib

variable {V : Type}

/-- Two calls that leave the engine the same and write the same command. -/
structure SameDecision (r r' : ProcessResult V) : Prop where
  state : r.engine.state = r'.engine.state
  soc_percent : r.engine.soc_percent = r'.engine.soc_percent
  max_cell_temp_c : r.engine.max_cell_temp_c = r'.engine.max_cell_temp_c
  grid_power_kw : r.engine.grid_power_kw = r'.engine.grid_power_kw
  command : r.command = r'.command

/-- The cell temperature in force at a point. -/
def latchedTemp (engine : StateEngine V) (t : Telemetry V) : V :=
  if t.isPoint maxCellTempC then t.value else engine.max_cell_temp_c

section

variable [CDouble V] (engine : StateEngine V) (cfg : GatewayConfig V) (t : Telemetry V)
  (cid ts : UInt64)

/-- The alarm pointer does not change what a call decides, and no call on a GOOD point, whichever
    pointers it has, orders a discharge or ends RUNNING over the temperature limit. -/
def OutputsOptional : Prop :=
  (∀ command,
    SameDecision (stateEngineProcessTelemetry engine cfg t false command cid ts)
      (stateEngineProcessTelemetry engine cfg t true command cid ts)) ∧
  (t.quality = .good → ∀ alarm command,
    let r := stateEngineProcessTelemetry engine cfg t alarm command cid ts
    CDouble.lt cfg.temp_high r.engine.max_cell_temp_c = true →
      r.command = none ∧ r.engine.state ≠ .running)

/-! ## The paths without an alarm -/

theorem processSoc_null (command : Bool) :
    processSoc engine cfg t false command cid ts =
      processStrategy engine cfg t command cid ts := by
  unfold processSoc
  simp

/-- With `NULL` every GOOD point reaches the strategy. -/
theorem process_null (command : Bool) (hg : t.quality = .good) :
    (stateEngineProcessTelemetry engine cfg t false command cid ts).engine =
      { updateSnapshot engine t with state := .running } := by
  cases hhot : CDouble.lt cfg.temp_high (updateSnapshot engine t).max_cell_temp_c with
  | false =>
    rw [process_cool engine cfg t cid ts false command hg hhot, processSoc_null]
    exact (processStrategy_engine _ cfg t cid ts command).1
  | true =>
    unfold stateEngineProcessTelemetry
    rw [if_neg (not_not.mpr hg)]
    simp only [hhot, if_true, Bool.false_eq_true, if_false, processSoc_null]
    exact (processStrategy_engine _ cfg t cid ts command).1

theorem processSoc_temp (alarm command : Bool) :
    (processSoc engine cfg t alarm command cid ts).engine.max_cell_temp_c =
      engine.max_cell_temp_c := by
  unfold processSoc
  split_ifs
  · rfl
  · rw [(processStrategy_engine engine cfg t cid ts command).1]

/-- A cool call ends with the temperature it latched, whatever its pointers. -/
theorem process_cool_temp (alarm command : Bool) (hg : t.quality = .good)
    (hcool : CDouble.lt cfg.temp_high (latchedTemp engine t) = false) :
    (stateEngineProcessTelemetry engine cfg t alarm command cid ts).engine.max_cell_temp_c =
      latchedTemp engine t := by
  have htemp : (updateSnapshot engine t).max_cell_temp_c = latchedTemp engine t :=
    updateSnapshot_temp engine t
  rw [← htemp] at hcool
  rw [process_cool engine cfg t cid ts alarm command hg hcool, processSoc_temp, htemp]

/-! ## When the pointer makes no difference -/

/-- Over the limit it always does: FAULT with an alarm, RUNNING without. -/
theorem not_sameDecision_of_hot (command : Bool) (hg : t.quality = .good)
    (hhot : CDouble.lt cfg.temp_high (latchedTemp engine t) = true) :
    ¬SameDecision (stateEngineProcessTelemetry engine cfg t false command cid ts)
      (stateEngineProcessTelemetry engine cfg t true command cid ts) := by
  intro h
  have hstate := h.state
  rw [← show (updateSnapshot engine t).max_cell_temp_c = latchedTemp engine t from
    updateSnapshot_temp engine t] at hhot
  rw [process_null engine cfg t cid ts command hg,
    process_hot engine cfg t cid ts command hg hhot] at hstate
  cases hstate

/-- On a low SOC reading the early return keeps the state the engine had. -/
theorem sameDecision_of_lowSoc (command : Bool) (hg : t.quality = .good)
    (hcool : CDouble.lt cfg.temp_high (latchedTemp engine t) = false)
    (hp : t.isPoint socPercent = true)
    (hlow : CDouble.le t.value cfg.min_discharge_soc = true) :
    SameDecision (stateEngineProcessTelemetry engine cfg t false command cid ts)
      (stateEngineProcessTelemetry engine cfg t true command cid ts) ↔ engine.state = .running := by
  have hsoc : (updateSnapshot engine t).soc_percent = t.value := by
    rw [updateSnapshot_soc, if_pos hp]
  rw [← show (updateSnapshot engine t).max_cell_temp_c = latchedTemp engine t from
    updateSnapshot_temp engine t] at hcool
  have hnull : (stateEngineProcessTelemetry engine cfg t false command cid ts).command = none := by
    rw [process_cool engine cfg t cid ts false command hg hcool, processSoc_null]
    simp [processStrategy, Telemetry.isPoint_unique hp socPercent_ne_gridPowerKw,
      ProcessResult.quiet]
  have halarm : stateEngineProcessTelemetry engine cfg t true command cid ts =
      raiseAlarm (updateSnapshot engine t) ts bmsSocLow
        (ascii "SOC below minimum discharge threshold") := by
    rw [process_cool engine cfg t cid ts true command hg hcool]
    exact processSoc_low _ cfg t cid ts command (hsoc ▸ hlow) hp
  constructor
  · intro h
    have hstate := h.state
    rw [process_null engine cfg t cid ts command hg, halarm] at hstate
    rw [← updateSnapshot_state engine t]
    exact hstate.symm
  · intro hrun
    refine ⟨?_, ?_, ?_, ?_, ?_⟩
    · rw [process_null engine cfg t cid ts command hg, halarm]
      exact (hrun ▸ updateSnapshot_state engine t).symm
    · rw [process_null engine cfg t cid ts command hg, halarm]
      rfl
    · rw [process_null engine cfg t cid ts command hg, halarm]
      rfl
    · rw [process_null engine cfg t cid ts command hg, halarm]
      rfl
    · rw [hnull, halarm]
      rfl

/-- Everywhere else both calls reach the strategy. -/
theorem process_eq_of_pass (command : Bool) (hg : t.quality = .good)
    (hcool : CDouble.lt cfg.temp_high (latchedTemp engine t) = false)
    (hpass : t.isPoint socPercent = false ∨ CDouble.le t.value cfg.min_discharge_soc = false) :
    stateEngineProcessTelemetry engine cfg t false command cid ts =
      stateEngineProcessTelemetry engine cfg t true command cid ts := by
  rw [← show (updateSnapshot engine t).max_cell_temp_c = latchedTemp engine t from
    updateSnapshot_temp engine t] at hcool
  rw [process_cool engine cfg t cid ts false command hg hcool,
    process_cool engine cfg t cid ts true command hg hcool, processSoc_null]
  refine (processSoc_pass _ cfg t cid ts command ?_).symm
  cases hp : t.isPoint socPercent with
  | false => exact .inr rfl
  | true =>
    refine .inl ?_
    rw [updateSnapshot_soc, if_pos hp]
    exact hpass.resolve_left (by simp [hp])

/-- **When the alarm pointer is optional.** For every engine, configuration, point and ids the
    outputs are optional exactly if the point is not GOOD; or the cell temperature in force is
    within the limit and, should the point be a SOC reading at or below the minimum, the engine is
    RUNNING already. -/
theorem outputsOptional_iff :
    OutputsOptional engine cfg t cid ts ↔
      t.quality ≠ .good ∨
        (CDouble.lt cfg.temp_high (latchedTemp engine t) = false ∧
          (t.isPoint socPercent = true → CDouble.le t.value cfg.min_discharge_soc = true →
            engine.state = .running)) := by
  by_cases hg : t.quality = .good
  swap
  · -- a call that ignores its point ignores its pointers
    refine iff_of_true ⟨?_, fun h => absurd h hg⟩ (.inl hg)
    intro command
    rw [process_notGood engine cfg t cid ts false command hg,
      process_notGood engine cfg t cid ts true command hg]
    exact ⟨rfl, rfl, rfl, rfl, rfl⟩
  cases hhot : CDouble.lt cfg.temp_high (latchedTemp engine t) with
  | true =>
    refine iff_of_false ?_ ?_
    · intro h
      exact not_sameDecision_of_hot engine cfg t cid ts true hg hhot (h.1 true)
    · rintro (h | ⟨h, _⟩)
      · exact h hg
      · cases h
  | false =>
    have hcool : t.quality = .good → ∀ alarm command,
        let r := stateEngineProcessTelemetry engine cfg t alarm command cid ts
        CDouble.lt cfg.temp_high r.engine.max_cell_temp_c = true →
          r.command = none ∧ r.engine.state ≠ .running := by
      intro _ alarm command r hr
      rw [process_cool_temp engine cfg t cid ts alarm command hg hhot, hhot] at hr
      cases hr
    simp only [OutputsOptional, iff_true_intro hcool, and_true, not_not.mpr hg, false_or, true_and]
    constructor
    · intro h hp hlow
      exact (sameDecision_of_lowSoc engine cfg t cid ts true hg hhot hp hlow).mp (h true)
    · intro h command
      by_cases hlow : t.isPoint socPercent = true ∧
          CDouble.le t.value cfg.min_discharge_soc = true
      · exact (sameDecision_of_lowSoc engine cfg t cid ts command hg hhot hlow.1 hlow.2).mpr
          (h hlow.1 hlow.2)
      · rw [process_eq_of_pass engine cfg t cid ts command hg hhot]
        · exact ⟨rfl, rfl, rfl, rfl, rfl⟩
        · simpa [or_iff_not_imp_left] using hlow

end

/-! ## The failing call -/

/-- An engine that has latched 60 degrees. -/
def hotEngine : StateEngine ℚ := { stateEngineInit with max_cell_temp_c := 60 }

/-- A grid reading of 150 kW. -/
def peakReading : Telemetry ℚ :=
  telemetryInit 2000 (ascii "meter_001") gridPowerKw 150 (ascii "kW") 1

/-- Without an alarm pointer the hot engine ends RUNNING and orders a discharge of 30 kW. -/
theorem outputs_not_optional :
    peakReading.quality = .good ∧
    ¬OutputsOptional hotEngine (gatewayConfigDefaults ℚ) peakReading 1 2000 ∧
    (stateEngineProcessTelemetry hotEngine (gatewayConfigDefaults ℚ) peakReading false true 1
      2000).engine.state = .running ∧
    (stateEngineProcessTelemetry hotEngine (gatewayConfigDefaults ℚ) peakReading false true 1
      2000).command.map (fun c => c.target_value) = some (-30) := by
  have hstate : (stateEngineProcessTelemetry hotEngine (gatewayConfigDefaults ℚ) peakReading false
      true 1 2000).engine.state = .running := by decide +kernel
  have hhot : CDouble.lt (gatewayConfigDefaults ℚ).temp_high
      (stateEngineProcessTelemetry hotEngine (gatewayConfigDefaults ℚ) peakReading false
        true 1 2000).engine.max_cell_temp_c = true := by decide +kernel
  refine ⟨rfl, ?_, hstate, by decide +kernel⟩
  intro h
  exact (h.2 rfl false true hhot).2 hstate

end Proof
end EdgeFlow
