import EdgeFlow.Model.DeviceModel
import EdgeFlow.Platform.Config

/-!
# The libmodbus back end (`src/ingress/modbus_libmodbus.*`)

Two module-level variables, `g_ctx` and `g_transport`, and the calls made on libmodbus with them.
A context is named by its number among the contexts created so far, so a name is never handed
out twice, and the state carries the calls in the order they are made: what the gateway does to a
context is read off that list.

What libmodbus answers is an input of every poll. `libmodbusStep` is the other side: what the
vendored library (`third_party/libmodbus`) makes of each call, and which calls it must not be
given.
-/

set_option autoImplicit false

namespace EdgeFlow

open Lib

/-! ## The calls -/

/-- The arguments of `modbus_new_tcp` and of `modbus_new_rtu`. -/
inductive ModbusBackend where
  | tcp (ip_address : CStr 128) (port : Int32)
  | rtu (device : CStr 128) (baud : Int32) (parity data_bit stop_bit : UInt8)
  deriving DecidableEq

/-- A call on libmodbus, with its answer where there is one. `want` is the transport string a
    context is created for, which libmodbus itself never sees. -/
inductive ModbusCall where
  | new (want : CStr 8) (backend : ModbusBackend) (made : Option Nat)
  | setSlave (ctx : Nat) (slave : Int32)
  | setResponseTimeout (ctx : Nat) (to_sec to_usec : UInt32)
  | connect (ctx : Nat) (ok : Bool)
  | readRegisters (ctx : Nat) (ok : Bool)
  | close (ctx : Nat)
  | free (ctx : Nat)
  deriving DecidableEq

/-- The context a call creates. -/
def ModbusCall.makes : ModbusCall → Option Nat
  | .new _ _ made => made
  | _ => none

/-- The module's variables, with the calls made so far, oldest first, and the number of contexts
    created by them. -/
structure ModbusState where
  g_ctx : Option Nat
  g_transport : CStr 8
  calls : List ModbusCall
  created : Nat

/-- Program start: the statics are zero. -/
def modbusStart : ModbusState where
  g_ctx := none
  g_transport := CStr.empty 8
  calls := []
  created := 0

/-- What the library and the clock answer during one poll: whether a context is made, whether it
    connects, the registers (`none` for a negative return), and `edgeflow_now_ms`. -/
structure ModbusOutcome where
  made : Bool
  connects : Bool
  regs : Option (UInt16 × UInt16 × UInt16)
  now : UInt64

/-! ## The module's functions -/

/-- `modbus_libmodbus_shutdown`. -/
def modbusLibmodbusShutdown (s : ModbusState) : ModbusState :=
  match s.g_ctx with
  | none => s
  | some ctx =>
    { s with
      g_ctx := none
      g_transport := CStr.empty 8
      calls := s.calls ++ [.close ctx, .free ctx] }

section
variable {V : Type}

/-- The backend `ensure_context` asks for: anything but `"tcp"` is a serial line. -/
def modbusBackend (cfg : GatewayConfig V) : ModbusBackend :=
  if cfg.modbus_transport.bytes = ascii "tcp" then
    .tcp cfg.modbus_tcp_host cfg.modbus_tcp_port.toUInt32.toInt32
  else
    .rtu cfg.serial_device cfg.modbus_baud_rate.toInt32 cfg.modbus_parity cfg.modbus_data_bits
      cfg.modbus_stop_bits

/-- `(int)cfg->modbus_timeout_ms * 1000`, as the `uint32_t` argument it becomes. The product of
    two `int`s is undefined where it overflows; this one wraps, as the machine's does. -/
def responseTimeoutUsec (modbus_timeout_ms : UInt32) : UInt32 :=
  (modbus_timeout_ms.toInt32 * 1000).toUInt32

/-- `ensure_context`. The answers of the two setters are not looked at. -/
def ensureContext (cfg : GatewayConfig V) (o : ModbusOutcome) (s : ModbusState) :
    Int × ModbusState :=
  let want := cfg.modbus_transport
  if s.g_ctx.isSome ∧ s.g_transport.bytes = want.bytes then (0, s)
  else
    let s := modbusLibmodbusShutdown s
    if !o.made then
      (-1, { s with g_ctx := none, calls := s.calls ++ [.new want (modbusBackend cfg) none] })
    else
      let ctx := s.created
      let s : ModbusState :=
        { s with
          g_ctx := some ctx
          created := ctx + 1
          calls := s.calls ++
            [.new want (modbusBackend cfg) (some ctx),
              .setSlave ctx cfg.modbus_slave_id.toUInt32.toInt32,
              .setResponseTimeout ctx 0 (responseTimeoutUsec cfg.modbus_timeout_ms)] }
      if !o.connects then
        (-1, { s with g_ctx := none, calls := s.calls ++ [.connect ctx false, .free ctx] })
      else
        (0, { s with
          g_transport := CStr.copy 8 want.bytes
          calls := s.calls ++ [.connect ctx true] })

/-- `map_registers_to_telemetry`; `tenth` is `(double)reg * 0.1` in the number format at hand. -/
def mapRegistersToTelemetry (tenth : UInt16 → V) (now : UInt64) (regs : UInt16 × UInt16 × UInt16)
    (out : List (Telemetry V)) : Int × List (Telemetry V) :=
  if out.length < 3 then (-1, out)
  else
    (3, [telemetryInit now (ascii "bms_001") socPercent (tenth regs.1) (ascii "%") 2,
      telemetryInit now (ascii "bms_001") maxCellTempC (tenth regs.2.1) (ascii "C") 2,
      telemetryInit now (ascii "meter_001") gridPowerKw (tenth regs.2.2) (ascii "kW") 2] ++
        out.drop 3)

/-- `modbus_libmodbus_poll` into the slots `out`, as many as `max_out`: the return value, what
    the slots hold then, and the module's state. -/
def modbusLibmodbusPoll (tenth : UInt16 → V) (cfg : GatewayConfig V) (o : ModbusOutcome)
    (out : List (Telemetry V)) (s : ModbusState) : Int × List (Telemetry V) × ModbusState :=
  if out.length < 3 then (-1, out, s)
  else
    let (rc, s) := ensureContext cfg o s
    if rc ≠ 0 then (-1, out, s)
    else
      match s.g_ctx with
      | none => (-1, out, s)  -- libmodbus answers -1 for a `NULL` context
      | some ctx =>
        let s : ModbusState :=
          { s with calls := s.calls ++ [.readRegisters ctx o.regs.isSome] }
        match o.regs with
        | none => (-1, out, modbusLibmodbusShutdown s)
        | some regs =>
          let (rc, out) := mapRegistersToTelemetry tenth o.now regs out
          (rc, out, s)

/-- What the adapter does with the module: poll it, or shut it down. -/
inductive ModbusAct (V : Type) where
  | poll (cfg : GatewayConfig V) (o : ModbusOutcome) (out : List (Telemetry V))
  | shutdown

def modbusAct (tenth : UInt16 → V) (s : ModbusState) : ModbusAct V → ModbusState
  | .poll cfg o out => (modbusLibmodbusPoll tenth cfg o out s).2.2
  | .shutdown => modbusLibmodbusShutdown s

end

/-! ## The library's side -/

/-- `modbus_t`, as far as these calls reach into it. -/
structure ModbusT where
  want : CStr 8
  connected : Bool
  response_timeout : UInt32 × UInt32
  deriving DecidableEq

/-- `_modbus_init_common`: not connected, and `_RESPONSE_TIMEOUT` (500 ms) in force. -/
def modbusInitCommon (want : CStr 8) : ModbusT where
  want := want
  connected := false
  response_timeout := (0, 500000)

/-- The pairs `modbus_set_response_timeout` takes. -/
def responseTimeoutOk (to_sec to_usec : UInt32) : Bool :=
  !((to_sec == 0 && to_usec == 0) || decide (999999 < to_usec))

/-- `modbus_set_response_timeout`: a pair it does not take leaves the timeout as it was. -/
def modbusSetResponseTimeout (ctx : ModbusT) (to_sec to_usec : UInt32) : ModbusT :=
  if responseTimeoutOk to_sec to_usec then { ctx with response_timeout := (to_sec, to_usec) }
  else ctx

/-- The contexts by number; `none` is one that has been freed. -/
abbrev ModbusTable := List (Option ModbusT)

/-- A call on a context that must be alive, with what it makes of it. -/
def onContext (T : ModbusTable) (ctx : Nat) (f : ModbusT → Option (Option ModbusT)) :
    Option ModbusTable :=
  match T[ctx]? with
  | some (some m) => (f m).map fun m' => T.set ctx m'
  | _ => none

/-- One call. `none` is a call no caller may make: on a context that was freed or never made, a
    read from one that is not connected, or freeing one that still is. -/
def libmodbusStep (T : ModbusTable) : ModbusCall → Option ModbusTable
  | .new _ _ none => some T
  | .new want _ (some ctx) =>
    if ctx = T.length then some (T ++ [some (modbusInitCommon want)]) else none
  | .setSlave ctx _ => onContext T ctx fun m => some (some m)
  | .setResponseTimeout ctx to_sec to_usec =>
    onContext T ctx fun m => some (some (modbusSetResponseTimeout m to_sec to_usec))
  | .connect ctx ok => onContext T ctx fun m => some (some { m with connected := ok })
  | .readRegisters ctx _ => onContext T ctx fun m => if m.connected then some (some m) else none
  | .close ctx => onContext T ctx fun m => some (some { m with connected := false })
  | .free ctx => onContext T ctx fun m => if m.connected then none else some none

/-- The contexts that are alive. -/
def liveContexts (T : ModbusTable) : Nat := T.countP Option.isSome

end EdgeFlow
