import EdgeFlow.Ingress.Adapter
import EdgeFlow.Ingress.ModbusRtu

/-!
# The Modbus plug-in (`src/ingress/modbus_adapter.*`)

The one plug-in the gateway registers. `modbus_init` rewrites the protocol the plug-in was
registered under, which is what the command path later looks it up by. The `poll` of
`modbusAdapterFill` is left to its caller: no command depends on it, and `modbusPoll` reads and
writes variables of two other files.
-/

set_option autoImplicit false

namespace EdgeFlow

open Lib

variable {V : Type}

/-- `modbus_init`. -/
def modbusInit (self : AdapterSelf) (cfg : GatewayConfig V) : Int × AdapterSelf :=
  if !self.ctx then (-1, self)
  else
    (0, { self with
      protocol := if cfg.modbus_transport.bytes = ascii "tcp" then .modbusTcp else .modbusRtu })

/-- `modbus_poll`. `cfg` is the pointer `modbus_init` stores in the context; `seq` and `s` are the
    variables of `modbus_rtu.c` and `modbus_libmodbus.c`. -/
def modbusPoll [CDoubleArith V] (cfg : Option (GatewayConfig V)) (o : ModbusOutcome) (seq : UInt32)
    (s : ModbusState) (self : AdapterSelf) (out : List (Telemetry V)) :
    Int × List (Telemetry V) × UInt32 × ModbusState :=
  if !self.ctx then (-1, out, seq, s)
  else
    match cfg with
    | none => (-1, out, seq, s)
    | some cfg => modbusRtuPoll cfg o out seq s

/-- `modbus_write_command`, which only logs: every call returns `0`. -/
def modbusWriteCommand : Nat → Int := fun _ => 0

/-- `modbus_adapter_fill`; `modbus_shutdown` closes the libmodbus context and leaves `self`. -/
def modbusAdapterFill (poll : AdapterSelf → List (Telemetry V) → Int × List (Telemetry V)) :
    DevicePlugin V where
  name := CStr.copy 64 (ascii "modbus")
  protocol := .modbusRtu
  source_id := 2
  ctx := true
  init := some modbusInit
  shutdown := some fun self => self
  poll := some poll
  write_command := some modbusWriteCommand

/-- The registry of the running gateway, as far as commands go. -/
def modbusRegistry : AdapterRegistry := [⟨.modbusRtu, some modbusWriteCommand⟩]

end EdgeFlow
