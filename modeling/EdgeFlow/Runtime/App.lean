import EdgeFlow.Core.Ring
import EdgeFlow.Ingress.ModbusAdapter
import EdgeFlow.Runtime.Worker

/-!
# Start-up (`gateway_app_init` in `src/runtime/app.c`)

What the three threads start from. The metrics, the heartbeat table, the MQTT session and the
watchdog are initialised here too and cannot fail; they are modelled where they are used.
-/

set_option autoImplicit false

namespace EdgeFlow

open Lib

variable {V : Type}

/-- What start-up gets from outside: the store `storage_open` opened, or `none` if it failed;
    whether `calloc` found memory for the ring; and what `modbus_poll` will read. -/
structure InitEnv (V : Type) where
  storage : Option (Storage V)
  calloc : Bool
  poll : AdapterSelf → List (Telemetry V) → Int × List (Telemetry V)

/-- `gateway_app_t`, as far as the ingress and worker threads use it. -/
structure GatewayApp (V : Type) where
  cfg : GatewayConfig V
  registry : PluginRegistry V
  ring : SpscRing (Telemetry V)
  control : Control V

/-- The element `calloc` leaves in the ring's buffer. -/
def zeroTelemetry [CDouble V] : Telemetry V where
  ts_ms := 0
  device_id := CStr.empty 64
  point_id := CStr.empty 64
  value := CDouble.lit 0
  unit := CStr.empty 16
  quality := .good
  source_id := 0

/-- `gateway_app_init`; `none` is `-1`. A plug-in whose `init` fails is only logged. -/
def gatewayAppInit [CDouble V] (outside : InitEnv V) (cfg : GatewayConfig V) :
    Option (GatewayApp V) :=
  match outside.storage with
  | none => none
  | some db =>
    match adapterRegistryRegister adapterRegistryInit (modbusAdapterFill outside.poll) with
    | (.ok, registry) =>
      let (_, registry) := adapterRegistryInitAll registry cfg
      if outside.calloc then
        (spscRingInit cfg.queue_size.toNat zeroTelemetry).map fun ring =>
          { cfg := cfg, registry := registry, ring := ring, control := controlInit db }
      else none
    | _ => none

end EdgeFlow
