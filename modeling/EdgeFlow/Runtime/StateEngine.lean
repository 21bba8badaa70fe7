import EdgeFlow.Model.DeviceModel
import EdgeFlow.Platform.Config

/-!
# The state and alarm engine (`src/runtime/state_engine.*`)

`stateEngineProcessTelemetry` is cut at the two places where the C function can fall through
an alarm branch: the temperature test may or may not return, and so may the SOC test, because
both early returns sit inside `alarm != NULL`. Each tail is a definition of its own
(`processSoc`, `processStrategy`), so that a path through the C function is a path through
these names.

The out-pointers are modelled by two `Bool`s — whether the caller passed one — and by what
was written through them: `none` means the caller's object is untouched.
-/

set_option autoImplicit false

namespace EdgeFlow

open Lib

variable {V : Type}

/-- `state_engine_t`. -/
structure StateEngine (V : Type) where
  state : SystemState
  soc_percent : V
  max_cell_temp_c : V
  grid_power_kw : V
  next_alarm_id : UInt64

/-- `update_snapshot`; the `bool` it returns is discarded by its caller. -/
def updateSnapshot (engine : StateEngine V) (telemetry : Telemetry V) : StateEngine V :=
  if telemetry.isPoint socPercent then { engine with soc_percent := telemetry.value }
  else if telemetry.isPoint maxCellTempC then { engine with max_cell_temp_c := telemetry.value }
  else if telemetry.isPoint gridPowerKw then { engine with grid_power_kw := telemetry.value }
  else engine

/-- What one call did: its return value, the engine, and what it wrote through the two
    out-pointers. -/
structure ProcessResult (V : Type) where
  ret : Bool
  engine : StateEngine V
  alarm : Option AlarmEvent
  command : Option (Command V)

/-- A call that returns `false` without writing anything out. -/
def ProcessResult.quiet (engine : StateEngine V) : ProcessResult V := ⟨false, engine, none, none⟩

/-- An alarm branch: build the alarm under the next alarm id (a `uint64_t`, which wraps) and
    return `true`. -/
def raiseAlarm (engine : StateEngine V) (ts_ms : UInt64) (code message : Bytes) :
    ProcessResult V where
  ret := true
  engine := { engine with next_alarm_id := engine.next_alarm_id + 1 }
  alarm := some (alarmMake engine.next_alarm_id ts_ms (ascii "bms_001") code .major message)
  command := none

theorem updateSnapshot_soc (engine : StateEngine V) (t : Telemetry V) :
    (updateSnapshot engine t).soc_percent =
      if t.isPoint socPercent then t.value else engine.soc_percent := by
  unfold updateSnapshot
  split_ifs <;> rfl

theorem updateSnapshot_temp (engine : StateEngine V) (t : Telemetry V) :
    (updateSnapshot engine t).max_cell_temp_c =
      if t.isPoint maxCellTempC then t.value else engine.max_cell_temp_c := by
  unfold updateSnapshot
  by_cases hs : t.isPoint socPercent = true
  · simp [hs, Telemetry.isPoint_unique hs socPercent_ne_maxCellTempC]
  · rw [if_neg hs]
    split_ifs <;> rfl

theorem updateSnapshot_grid (engine : StateEngine V) (t : Telemetry V) :
    (updateSnapshot engine t).grid_power_kw =
      if t.isPoint gridPowerKw then t.value else engine.grid_power_kw := by
  unfold updateSnapshot
  by_cases hs : t.isPoint socPercent = true
  · simp [hs, Telemetry.isPoint_unique hs socPercent_ne_gridPowerKw]
  · by_cases ht : t.isPoint maxCellTempC = true
    · simp [hs, ht, Telemetry.isPoint_unique ht maxCellTempC_ne_gridPowerKw]
    · rw [if_neg hs, if_neg ht]
      split_ifs <;> rfl

@[simp] theorem updateSnapshot_state (engine : StateEngine V) (t : Telemetry V) :
    (updateSnapshot engine t).state = engine.state := by
  unfold updateSnapshot
  split_ifs <;> rfl

/-- Both codes fit their field, so an alarm carries the code it was raised under. -/
theorem copy_bmsTempHigh : (CStr.copy 64 bmsTempHigh).bytes = bmsTempHigh := by decide

theorem copy_bmsSocLow : (CStr.copy 64 bmsSocLow).bytes = bmsSocLow := by decide

theorem bmsTempHigh_ne_bmsSocLow : bmsTempHigh ≠ bmsSocLow := by decide

theorem raiseAlarm_alarm_code {engine : StateEngine V} {ts : UInt64} {code message want : Bytes}
    (hcode : (CStr.copy 64 code).bytes = code) :
    (∃ a, (raiseAlarm engine ts code message).alarm = some a ∧ a.code.bytes = want) ↔
      code = want := by
  constructor
  · rintro ⟨a, ha, hw⟩
    simp only [raiseAlarm, Option.some.injEq] at ha
    subst ha
    exact hcode.symm.trans hw
  · rintro rfl
    exact ⟨_, rfl, hcode⟩

section Process

variable [CDouble V]

/-- `state_engine_init`. -/
def stateEngineInit : StateEngine V where
  state := .init
  soc_percent := CDouble.lit 80
  max_cell_temp_c := CDouble.lit 0
  grid_power_kw := CDouble.lit 0
  next_alarm_id := 1

/-- `clamp_discharge`. -/
def clampDischarge (kw max_kw : V) : V :=
  if CDouble.lt kw (CDouble.lit 0) then CDouble.lit 0
  else if CDouble.lt max_kw kw then max_kw
  else kw

/-- From `engine->state = SYSTEM_STATE_RUNNING` to the end: the peak-shaving strategy. -/
def processStrategy (engine : StateEngine V) (cfg : GatewayConfig V) (telemetry : Telemetry V)
    (command : Bool) (command_id ts_ms : UInt64) : ProcessResult V :=
  let engine := { engine with state := .running }
  if !telemetry.isPoint gridPowerKw then .quiet engine
  else if CDouble.le engine.soc_percent cfg.min_discharge_soc then .quiet engine
  else if CDouble.le engine.grid_power_kw cfg.peak_shaving_threshold_kw then .quiet engine
  else
    let discharge_kw := clampDischarge
      (CDouble.sub engine.grid_power_kw cfg.peak_shaving_threshold_kw) cfg.max_discharge_kw
    if !command || CDouble.le discharge_kw (CDouble.lit 0) then .quiet engine
    else
      { ret := true
        engine := engine
        alarm := none
        command := some (commandInitSetpoint command_id ts_ms (ascii "pcs_001")
          (ascii "target_power_kw") (CDouble.neg discharge_kw) 3) }

/-- From the SOC test on. The alarm is raised on SOC readings only, and its early return
    leaves `state` as it was. -/
def processSoc (engine : StateEngine V) (cfg : GatewayConfig V) (telemetry : Telemetry V)
    (alarm command : Bool) (command_id ts_ms : UInt64) : ProcessResult V :=
  if CDouble.le engine.soc_percent cfg.min_discharge_soc && (alarm && telemetry.isPoint socPercent)
  then raiseAlarm engine ts_ms bmsSocLow (ascii "SOC below minimum discharge threshold")
  else processStrategy engine cfg telemetry command command_id ts_ms

/-- `state_engine_process_telemetry`. With `alarm = NULL` the temperature branch sets FAULT
    and falls through. -/
def stateEngineProcessTelemetry (engine : StateEngine V) (cfg : GatewayConfig V)
    (telemetry : Telemetry V) (alarm command : Bool) (command_id ts_ms : UInt64) :
    ProcessResult V :=
  if telemetry.quality ≠ .good then .quiet engine
  else
    let engine := updateSnapshot engine telemetry
    if CDouble.lt cfg.temp_high engine.max_cell_temp_c then
      let engine := { engine with state := .fault }
      if alarm then
        raiseAlarm engine ts_ms bmsTempHigh (ascii "max cell temperature exceeds limit")
      else processSoc engine cfg telemetry alarm command command_id ts_ms
    else processSoc engine cfg telemetry alarm command command_id ts_ms

/-! ## What one call can do

The spec every history proof uses: the four ways a call with both pointers ends. -/

section Cases

variable (engine : StateEngine V) (cfg : GatewayConfig V) (t : Telemetry V) (cid ts : UInt64)

theorem process_notGood (alarm command : Bool) (h : t.quality ≠ .good) :
    stateEngineProcessTelemetry engine cfg t alarm command cid ts = .quiet engine := by
  unfold stateEngineProcessTelemetry
  rw [if_pos h]

theorem process_hot (command : Bool) (hg : t.quality = .good)
    (hhot : CDouble.lt cfg.temp_high (updateSnapshot engine t).max_cell_temp_c = true) :
    stateEngineProcessTelemetry engine cfg t true command cid ts =
      raiseAlarm { updateSnapshot engine t with state := .fault } ts bmsTempHigh
        (ascii "max cell temperature exceeds limit") := by
  unfold stateEngineProcessTelemetry
  rw [if_neg (by simp [hg])]
  simp only [hhot, if_true]

theorem process_cool (alarm command : Bool) (hg : t.quality = .good)
    (hcool : CDouble.lt cfg.temp_high (updateSnapshot engine t).max_cell_temp_c = false) :
    stateEngineProcessTelemetry engine cfg t alarm command cid ts =
      processSoc (updateSnapshot engine t) cfg t alarm command cid ts := by
  unfold stateEngineProcessTelemetry
  rw [if_neg (by simp [hg])]
  simp [hcool]

theorem processSoc_low (command : Bool)
    (hlow : CDouble.le engine.soc_percent cfg.min_discharge_soc = true)
    (hp : t.isPoint socPercent = true) :
    processSoc engine cfg t true command cid ts =
      raiseAlarm engine ts bmsSocLow (ascii "SOC below minimum discharge threshold") := by
  unfold processSoc
  rw [if_pos (by simp [hlow, hp])]

theorem processSoc_pass (command : Bool)
    (h : CDouble.le engine.soc_percent cfg.min_discharge_soc = false ∨
      t.isPoint socPercent = false) :
    processSoc engine cfg t true command cid ts =
      processStrategy engine cfg t command cid ts := by
  unfold processSoc
  rw [if_neg]
  rcases h with h | h <;> simp [h]

/-- Whatever the strategy decides, it leaves the engine RUNNING and raises no alarm. -/
theorem processStrategy_engine (command : Bool) :
    (processStrategy engine cfg t command cid ts).engine = { engine with state := .running } ∧
      (processStrategy engine cfg t command cid ts).alarm = none := by
  unfold processStrategy
  dsimp only
  split_ifs <;> exact ⟨rfl, rfl⟩

end Cases

end Process
end EdgeFlow
