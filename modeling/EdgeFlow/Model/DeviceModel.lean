import EdgeFlow.Lib.CDouble

/-!
# The unified device model (`src/model/device_model.*`)

The objects the layers of the gateway hand to each other: a telemetry point going up, an
alarm event, and a command going down with its life cycle. Every text field is a `CStr` of
the size the header declares, and every numeric field has the header's width.

`NULL` arguments are excluded by the types: the constructors' `-1` for a `NULL` text is
unreachable from the code modelled here, which passes literals and array fields only. The
out-pointers of the state engine, where `NULL` is a real case, are handled there.
-/

set_option autoImplicit false

namespace EdgeFlow

open Lib

/-! ## Enumerations -/

inductive DeviceProtocol where
  | modbusRtu | modbusTcp | tcp | udp | simulator
  deriving DecidableEq, Repr

inductive DeviceOnlineState where
  | unknown | online | offline | degraded
  deriving DecidableEq, Repr

inductive TelemetryQuality where
  | good | bad | uncertain
  deriving DecidableEq, Repr

inductive AlarmLevel where
  | info | minor | major | critical
  deriving DecidableEq, Repr

inductive AlarmState where
  | active | recovered
  deriving DecidableEq, Repr

inductive CommandType where
  | setPointValue | setDeviceMode | stopDevice
  deriving DecidableEq, Repr

inductive CommandState where
  | pending | sent | acked | verified | timeout | retrying | failed
  deriving DecidableEq, Repr

inductive SystemState where
  | init | standby | running | degraded | fault | stopped
  deriving DecidableEq, Repr

/-- `telemetry_quality_to_string`. The `default` arm of the C switch is for values outside
    the enumeration. -/
def telemetryQualityToString : TelemetryQuality → Bytes
  | .good => ascii "good"
  | .bad => ascii "bad"
  | .uncertain => ascii "uncertain"

/-- `command_state_to_string`. -/
def commandStateToString : CommandState → Bytes
  | .pending => ascii "PENDING"
  | .sent => ascii "SENT"
  | .acked => ascii "ACKED"
  | .verified => ascii "VERIFIED"
  | .timeout => ascii "TIMEOUT"
  | .retrying => ascii "RETRYING"
  | .failed => ascii "FAILED"

/-! ## Objects -/

/-- `device_t`. -/
structure Device where
  id : CStr 64
  name : CStr 64
  protocol : DeviceProtocol
  online_state : DeviceOnlineState
  last_seen_ms : UInt64
  consecutive_failures : UInt32
  last_error : CStr 128
  deriving DecidableEq

/-- `telemetry_t`. -/
structure Telemetry (V : Type) where
  ts_ms : UInt64
  device_id : CStr 64
  point_id : CStr 64
  value : V
  unit : CStr 16
  quality : TelemetryQuality
  source_id : UInt16
  deriving DecidableEq

/-- `alarm_event_t`. -/
structure AlarmEvent where
  alarm_id : UInt64
  ts_ms : UInt64
  device_id : CStr 64
  code : CStr 64
  level : AlarmLevel
  state : AlarmState
  message : CStr 128
  recovered_ts_ms : UInt64
  deriving DecidableEq

/-- `command_t`. -/
structure Command (V : Type) where
  command_id : UInt64
  created_ts_ms : UInt64
  target_device_id : CStr 64
  type : CommandType
  state : CommandState
  point_id : CStr 64
  target_value : V
  retry_count : Int
  max_retries : Int
  result_message : CStr 128

/-- `device_init`. -/
def deviceInit (id name : Bytes) (protocol : DeviceProtocol) : Device where
  id := CStr.copy 64 id
  name := CStr.copy 64 name
  protocol := protocol
  online_state := .unknown
  last_seen_ms := 0
  consecutive_failures := 0
  last_error := CStr.empty 128

/-- `device_mark_online`. -/
def deviceMarkOnline (device : Device) (ts_ms : UInt64) : Device :=
  { device with
    online_state := .online
    last_seen_ms := ts_ms
    consecutive_failures := 0
    last_error := CStr.empty 128 }

/-- `device_mark_failure`; `none` is a `NULL` error text. The counter is incremented as it is, so
    it can come back to `0`, and then neither branch of the source assigns the state. -/
def deviceMarkFailure (device : Device) (ts_ms : UInt64) (error : Option Bytes) : Device :=
  let failures := device.consecutive_failures + 1
  { device with
    last_seen_ms := ts_ms
    consecutive_failures := failures
    last_error := CStr.copy 128 (error.getD [])
    online_state :=
      if 3 ≤ failures then .offline
      else if 0 < failures then .degraded
      else device.online_state }

variable {V : Type}

/-- `telemetry_init`: quality GOOD, every text cut to its field. -/
def telemetryInit (ts_ms : UInt64) (device_id point_id : Bytes) (value : V) (unit : Bytes)
    (source_id : UInt16) : Telemetry V where
  ts_ms := ts_ms
  device_id := CStr.copy 64 device_id
  point_id := CStr.copy 64 point_id
  value := value
  unit := CStr.copy 16 unit
  quality := .good
  source_id := source_id

/-- `command_init_setpoint`, on its success path: `max_retries` is a literal `3` at the only
    call site. -/
def commandInitSetpoint (command_id created_ts_ms : UInt64) (target_device_id point_id : Bytes)
    (target_value : V) (max_retries : Int) : Command V where
  command_id := command_id
  created_ts_ms := created_ts_ms
  target_device_id := CStr.copy 64 target_device_id
  type := .setPointValue
  state := .pending
  point_id := CStr.copy 64 point_id
  target_value := target_value
  retry_count := 0
  max_retries := max_retries
  result_message := CStr.empty 128

/-- `command_mark_verified`. -/
def commandMarkVerified (command : Command V) (message : Bytes) : Command V :=
  { command with state := .verified, result_message := CStr.copy 128 message }

/-- `alarm_make`: an ACTIVE alarm, not yet recovered. -/
def alarmMake (alarm_id ts_ms : UInt64) (device_id code : Bytes) (level : AlarmLevel)
    (message : Bytes) : AlarmEvent where
  alarm_id := alarm_id
  ts_ms := ts_ms
  device_id := CStr.copy 64 device_id
  code := CStr.copy 64 code
  level := level
  state := .active
  message := CStr.copy 128 message
  recovered_ts_ms := 0

/-! ## The names the code compares against

The three telemetry points the control logic reads, and the two alarm codes it raises. Each
`strcmp` of the source is an equation with one of these. -/

def socPercent : Bytes := ascii "soc_percent"
def maxCellTempC : Bytes := ascii "max_cell_temp_c"
def gridPowerKw : Bytes := ascii "grid_power_kw"
def bmsTempHigh : Bytes := ascii "BMS_TEMP_HIGH"
def bmsSocLow : Bytes := ascii "BMS_SOC_LOW"

/-- `strcmp(point->point_id, name) == 0`. -/
def Telemetry.isPoint (t : Telemetry V) (name : Bytes) : Bool := decide (t.point_id.bytes = name)

theorem Telemetry.isPoint_iff {t : Telemetry V} {name : Bytes} :
    t.isPoint name = true ↔ t.point_id.bytes = name := by
  simp [Telemetry.isPoint]

theorem socPercent_ne_maxCellTempC : socPercent ≠ maxCellTempC := by decide
theorem socPercent_ne_gridPowerKw : socPercent ≠ gridPowerKw := by decide
theorem maxCellTempC_ne_gridPowerKw : maxCellTempC ≠ gridPowerKw := by decide

/-- A point is at most one of the names. -/
theorem Telemetry.isPoint_unique {t : Telemetry V} {a b : Bytes} (ha : t.isPoint a = true)
    (hab : a ≠ b) : t.isPoint b = false := by
  rw [Telemetry.isPoint_iff] at ha
  simp only [Telemetry.isPoint, decide_eq_false_iff_not]
  exact fun hb => hab (ha.symm.trans hb)

end EdgeFlow
