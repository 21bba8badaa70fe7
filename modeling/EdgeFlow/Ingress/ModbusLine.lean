import EdgeFlow.ThirdParty.Modbus
import EdgeFlow.Ingress.ModbusLibmodbus

/-!
# A poll with the library behind it

`modbus_libmodbus_poll` takes libmodbus as answers. Here they come from the library's own read,
over the line it meets: the back end and the slave are those the context was made with, and the
registers those the read has stored.
-/

set_option autoImplicit false

namespace EdgeFlow
namespace Libmodbus

open Lib

/-- What is on the line during one read: what becomes of the request, what `select` and `recv`
    answer, and the bytes that come. -/
structure Line where
  sent : Bytes → Int
  answers : List RecvAnswer
  stream : Bytes

/-- `send` writes some of a request or fails: it does not write nothing of something. -/
def Line.Writes (line : Line) : Prop := ∀ req, req ≠ [] → line.sent req ≠ 0

section
variable {V : Type}

/-- The back end of the context `ensure_context` makes. -/
def backendOf (cfg : GatewayConfig V) : Backend :=
  if cfg.modbus_transport.bytes = ascii "tcp" then tcp else rtu

/-- The slave a context starts with: none on a serial line, `MODBUS_TCP_SLAVE` over TCP. -/
def initialSlave (cfg : GatewayConfig V) : Int :=
  if cfg.modbus_transport.bytes = ascii "tcp" then 0xFF else -1

/-- The slave after `modbus_set_slave`, whose answer is not looked at. -/
def contextSlave (cfg : GatewayConfig V) : Int :=
  ((backendOf cfg).set_slave cfg.modbus_slave_id.toNat).getD (initialSlave cfg)

/-- The context of a poll. -/
def pollCtx (cfg : GatewayConfig V) (t_id : UInt16) : Ctx := ⟨contextSlave cfg, t_id⟩

/-- The read of a poll: three registers from address 0. -/
def pollRead (cfg : GatewayConfig V) (t_id : UInt16) (line : Line) : ReadResult :=
  modbusReadRegisters (backendOf cfg) (pollCtx cfg t_id) 0 3 line.sent line.answers line.stream

/-- The registers the poll goes on with: those stored, when the return value is not negative. -/
def ReadResult.regs : ReadResult → Option (UInt16 × UInt16 × UInt16)
  | .aborted => none
  | .returns rc dest => if rc < 0 then none else some (dest.getD 0 0, dest.getD 1 0, dest.getD 2 0)

/-- `modbus_libmodbus_poll` with the library behind it; `none` when the process does not come
    back from the read. -/
def wirePoll (tenth : UInt16 → V) (cfg : GatewayConfig V) (made connects : Bool) (now : UInt64)
    (t_id : UInt16) (line : Line) (out : List (Telemetry V)) (s : ModbusState) :
    Option (Int × List (Telemetry V) × ModbusState) :=
  let o : ModbusOutcome := ⟨made, connects, (pollRead cfg t_id line).regs, now⟩
  if out.length < 3 ∨ (ensureContext cfg o s).1 ≠ 0 ∨ pollRead cfg t_id line ≠ .aborted then
    some (modbusLibmodbusPoll tenth cfg o out s)
  else none

end

end Libmodbus
end EdgeFlow
