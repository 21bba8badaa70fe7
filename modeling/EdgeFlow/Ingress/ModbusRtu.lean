import EdgeFlow.Ingress.ModbusLibmodbus

/-!
# Modbus RTU frames and the poll behind the plug-in (`src/ingress/modbus_rtu.*`)

`modbus_crc16` is the register of the source, byte by byte and bit by bit. A frame is a message
with its checksum behind it, low byte first; the only one this file builds is the request of the
simulated poll, which is not sent anywhere. `modbus_rtu_poll` chooses between that poll, whose
points are a function of a static counter, and libmodbus.
-/

set_option autoImplicit false

namespace EdgeFlow

open Lib

/-! ## The checksum -/

/-- The body of the inner loop of `modbus_crc16`. -/
def crcBit (crc : UInt16) : UInt16 :=
  if crc &&& 0x0001 ≠ 0 then (crc >>> 1) ^^^ 0xA001 else crc >>> 1

/-- The inner loop, with `n` turns to go. -/
def crcBits : Nat → UInt16 → UInt16
  | 0, crc => crc
  | n + 1, crc => crcBits n (crcBit crc)

/-- The body of the outer loop. -/
def crcByte (crc : UInt16) (byte : UInt8) : UInt16 := crcBits 8 (crc ^^^ byte.toUInt16)

/-- `modbus_crc16`, of the `len` bytes of `buf`. -/
def modbusCrc16 (buf : Bytes) : UInt16 := buf.foldl crcByte 0xFFFF

/-- A message and its checksum, low byte first. -/
def modbusFrame (msg : Bytes) : Bytes :=
  msg ++ [(modbusCrc16 msg &&& 0xFF).toUInt8, (modbusCrc16 msg >>> 8).toUInt8]

/-! ## The poll -/

/-- `req` of `modbus_poll_simulate` after its two last bytes are stored. -/
def simulateReq : Bytes :=
  let req : Bytes := [0x01, 0x03, 0x00, 0x00, 0x00, 0x03, 0x00, 0x00]
  let crc := modbusCrc16 (req.take 6)
  (req.set 6 (crc &&& 0xFF).toUInt8).set 7 (crc >>> 8).toUInt8

theorem simulateReq_eq : simulateReq = modbusFrame [0x01, 0x03, 0x00, 0x00, 0x00, 0x03] := rfl

section
variable {V : Type} [CDoubleArith V]

/-- `(double)n * literal`. -/
def scaled (n : Nat) (literal : ℚ) : V :=
  CDoubleArith.mul (CDoubleArith.ofUnsigned n) (CDouble.lit literal)

/-- `modbus_poll_simulate` into the slots `out`, as many as `max_out`; `seq` is the static
    counter, which wraps. -/
def modbusPollSimulate (now : UInt64) (out : List (Telemetry V)) (seq : UInt32) :
    Int × List (Telemetry V) × UInt32 :=
  if out.length < 3 then (-1, out, seq)
  else
    let soc := CDouble.sub (CDouble.lit 80) (scaled (seq % 30).toNat (2 / 10))
    let temp := CDoubleArith.add (CDouble.lit 28) (scaled (seq % 20).toNat (2 / 10))
    let power := CDoubleArith.add (CDouble.lit 90) (CDoubleArith.ofUnsigned (seq % 80).toNat)
    (3, [telemetryInit now (ascii "bms_001") socPercent soc (ascii "%") 2,
      telemetryInit now (ascii "bms_001") maxCellTempC temp (ascii "C") 2,
      telemetryInit now (ascii "meter_001") gridPowerKw power (ascii "kW") 2] ++ out.drop 3,
      seq + 1)

/-- `modbus_rtu_poll`, with the counter of the simulated poll and the state of libmodbus. -/
def modbusRtuPoll (cfg : GatewayConfig V) (o : ModbusOutcome) (out : List (Telemetry V))
    (seq : UInt32) (s : ModbusState) : Int × List (Telemetry V) × UInt32 × ModbusState :=
  if out.length < 3 then (-1, out, seq, s)
  else if cfg.simulate then
    let (rc, out, seq) := modbusPollSimulate o.now out seq
    (rc, out, seq, s)
  else
    let (rc, out, s) := modbusLibmodbusPoll (fun reg => scaled reg.toNat (1 / 10)) cfg o out s
    (rc, out, seq, s)

end

end EdgeFlow
