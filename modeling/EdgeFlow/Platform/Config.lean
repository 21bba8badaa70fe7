import EdgeFlow.Lib.CDouble
import EdgeFlow.Lib.Json

/-!
# The gateway configuration (`src/platform/config.*`)

`gateway_config_t`, field by field with the header's sizes, `gateway_config_defaults` and
`gateway_config_load`. Every layer keeps its own copy (`app->cfg`, `session->cfg`, `ctx->cfg`),
taken once at start-up and never written again, so the model passes one value around.

The loader is modelled over what cJSON delivers: `cJsonParse` is any reader of texts. A member is
looked up by `Json.member`, as `cJSON_GetObjectItemCaseSensitive` finds it.
-/

set_option autoImplicit false

namespace EdgeFlow

open Lib

structure GatewayConfig (V : Type) where
  device_id : CStr 32
  simulate : Bool
  serial_device : CStr 128
  poll_interval_ms : UInt32
  queue_size : UInt32
  deadband : V
  temp_high : V
  peak_shaving_threshold_kw : V
  max_discharge_kw : V
  min_discharge_soc : V
  broker_host : CStr 128
  broker_port : UInt16
  mqtt_topic : CStr 128
  mqtt_alarm_topic : CStr 128
  mqtt_heartbeat_topic : CStr 128
  log_dir : CStr 128
  metrics_path : CStr 128
  cache_path : CStr 128
  use_sqlite : Bool
  sqlite_path : CStr 128
  mqtt_replay_batch : UInt32
  mqtt_keepalive_sec : UInt32
  watchdog_interval_ms : UInt32
  heartbeat_interval_ms : UInt32
  modbus_transport : CStr 8
  modbus_tcp_host : CStr 128
  modbus_tcp_port : UInt16
  modbus_slave_id : UInt8
  modbus_baud_rate : UInt32
  modbus_parity : UInt8
  modbus_data_bits : UInt8
  modbus_stop_bits : UInt8
  modbus_timeout_ms : UInt32

/-- `gateway_config_defaults`. -/
def gatewayConfigDefaults (V : Type) [CDouble V] : GatewayConfig V where
  device_id := CStr.copy 32 (ascii "gw-dev")
  simulate := true
  serial_device := CStr.copy 128 (ascii "/dev/ttyUSB0")
  poll_interval_ms := 1000
  queue_size := 1024
  deadband := CDouble.lit (1 / 10)
  temp_high := CDouble.lit 55
  peak_shaving_threshold_kw := CDouble.lit 100
  max_discharge_kw := CDouble.lit 30
  min_discharge_soc := CDouble.lit 20
  broker_host := CStr.copy 128 (ascii "127.0.0.1")
  broker_port := 1883
  mqtt_topic := CStr.copy 128 (ascii "edgeflow/telemetry")
  mqtt_alarm_topic := CStr.copy 128 (ascii "edgeflow/alarm")
  mqtt_heartbeat_topic := CStr.copy 128 (ascii "edgeflow/heartbeat")
  log_dir := CStr.copy 128 (ascii "/tmp/edgeflow")
  metrics_path := CStr.copy 128 (ascii "/tmp/edgeflow/metrics.prom")
  cache_path := CStr.copy 128 (ascii "/tmp/edgeflow/offline-cache.jsonl")
  use_sqlite := true
  sqlite_path := CStr.copy 128 (ascii "/tmp/edgeflow/edgeflow.db")
  mqtt_replay_batch := 50
  mqtt_keepalive_sec := 60
  watchdog_interval_ms := 2000
  heartbeat_interval_ms := 5000
  modbus_transport := CStr.copy 8 (ascii "rtu")
  modbus_tcp_host := CStr.copy 128 (ascii "127.0.0.1")
  modbus_tcp_port := 502
  modbus_slave_id := 1
  modbus_baud_rate := 9600
  modbus_parity := 78
  modbus_data_bits := 8
  modbus_stop_bits := 1
  modbus_timeout_ms := 500

/-! ## Loading -/

section
variable {V : Type} (root : Json V) (key : String)

/-- The `json_copy_*` family: the member with the key if it is of the type asked for, and
    otherwise what `dst` holds. -/
def jsonCopy {α : Type} (get : Json V → Option α) (dst : α) : α :=
  ((root.member (ascii key)).bind get).getD dst

def jsonCopyString {n : Nat} [NeZero n] (dst : CStr n) : CStr n :=
  jsonCopy root key (fun item => item.string?.map (CStr.copy n)) dst

def jsonCopyBool (dst : Bool) : Bool := jsonCopy root key Json.bool? dst

def jsonCopyDouble (dst : V) : V := jsonCopy root key Json.number? dst

/-- The first character of a string that is not empty. -/
def jsonCopyParity (dst : UInt8) : UInt8 :=
  jsonCopy root key (fun item => item.string?.bind fun s => (upToNul s).head?) dst

variable [CDoubleInt V] (undef : Nat → V → Nat)

def jsonCopyUint32 (dst : UInt32) : UInt32 :=
  jsonCopy root key (fun item => item.number?.map fun v => .ofNat (toUnsigned undef 32 v)) dst

def jsonCopyUint16 (dst : UInt16) : UInt16 :=
  jsonCopy root key (fun item => item.number?.map fun v => .ofNat (toUnsigned undef 16 v)) dst

def jsonCopyUint8 (dst : UInt8) : UInt8 :=
  jsonCopy root key (fun item => item.number?.map fun v => .ofNat (toUnsigned undef 8 v)) dst

end

section
variable {V : Type} [CDouble V] [CDoubleInt V] (undef : Nat → V → Nat)

/-- The copies of `gateway_config_load`, over the defaults. -/
def configOfDocument (root : Json V) : GatewayConfig V :=
  let cfg := gatewayConfigDefaults V
  { device_id := jsonCopyString root "device_id" cfg.device_id
    simulate := jsonCopyBool root "simulate" cfg.simulate
    serial_device := jsonCopyString root "serial_device" cfg.serial_device
    poll_interval_ms := jsonCopyUint32 root "poll_interval_ms" undef cfg.poll_interval_ms
    queue_size := jsonCopyUint32 root "queue_size" undef cfg.queue_size
    deadband := jsonCopyDouble root "deadband" cfg.deadband
    temp_high := jsonCopyDouble root "temp_high" cfg.temp_high
    peak_shaving_threshold_kw :=
      jsonCopyDouble root "peak_shaving_threshold_kw" cfg.peak_shaving_threshold_kw
    max_discharge_kw := jsonCopyDouble root "max_discharge_kw" cfg.max_discharge_kw
    min_discharge_soc := jsonCopyDouble root "min_discharge_soc" cfg.min_discharge_soc
    broker_host := jsonCopyString root "broker_host" cfg.broker_host
    broker_port := jsonCopyUint16 root "broker_port" undef cfg.broker_port
    mqtt_topic := jsonCopyString root "mqtt_topic" cfg.mqtt_topic
    mqtt_alarm_topic := jsonCopyString root "mqtt_alarm_topic" cfg.mqtt_alarm_topic
    mqtt_heartbeat_topic := jsonCopyString root "mqtt_heartbeat_topic" cfg.mqtt_heartbeat_topic
    log_dir := jsonCopyString root "log_dir" cfg.log_dir
    metrics_path := jsonCopyString root "metrics_path" cfg.metrics_path
    cache_path := jsonCopyString root "cache_path" cfg.cache_path
    sqlite_path := jsonCopyString root "sqlite_path" cfg.sqlite_path
    use_sqlite := jsonCopyBool root "use_sqlite" cfg.use_sqlite
    mqtt_replay_batch := jsonCopyUint32 root "mqtt_replay_batch" undef cfg.mqtt_replay_batch
    mqtt_keepalive_sec := jsonCopyUint32 root "mqtt_keepalive_sec" undef cfg.mqtt_keepalive_sec
    watchdog_interval_ms :=
      jsonCopyUint32 root "watchdog_interval_ms" undef cfg.watchdog_interval_ms
    heartbeat_interval_ms :=
      jsonCopyUint32 root "heartbeat_interval_ms" undef cfg.heartbeat_interval_ms
    modbus_transport := jsonCopyString root "modbus_transport" cfg.modbus_transport
    modbus_tcp_host := jsonCopyString root "modbus_tcp_host" cfg.modbus_tcp_host
    modbus_tcp_port := jsonCopyUint16 root "modbus_tcp_port" undef cfg.modbus_tcp_port
    modbus_slave_id := jsonCopyUint8 root "modbus_slave_id" undef cfg.modbus_slave_id
    modbus_baud_rate := jsonCopyUint32 root "modbus_baud_rate" undef cfg.modbus_baud_rate
    modbus_parity := jsonCopyParity root "modbus_parity" cfg.modbus_parity
    modbus_data_bits := jsonCopyUint8 root "modbus_data_bits" undef cfg.modbus_data_bits
    modbus_stop_bits := jsonCopyUint8 root "modbus_stop_bits" undef cfg.modbus_stop_bits
    modbus_timeout_ms := jsonCopyUint32 root "modbus_timeout_ms" undef cfg.modbus_timeout_ms }

/-- `gateway_config_load`: the return code (`true` for `0`) and what `cfg` holds. `file` is what
    `read_file` reads, `none` if it fails; cJSON sees the text up to its first NUL. -/
def gatewayConfigLoad (cJsonParse : Bytes → Option (Json V)) (file : Option Bytes) :
    Bool × GatewayConfig V :=
  match file.bind fun text => cJsonParse (upToNul text) with
  | some (.object members) => (true, configOfDocument undef (.object members))
  | _ => (false, gatewayConfigDefaults V)

end

end EdgeFlow
