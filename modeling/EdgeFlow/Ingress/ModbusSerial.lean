import EdgeFlow.Ingress.ModbusRtu

/-!
# The serial line (`src/ingress/modbus_serial.*`)

One exchange: write a request, read a response, check its checksum. What the line does is a list
of events, one for each turn of the read loop; `select` waits at most a timeout, so a list that
runs out is a line on which nothing more comes. Opening and configuring the device is left to
the operating system.
-/

set_option autoImplicit false

namespace EdgeFlow

open Lib

/-- What one turn of `read_with_timeout` meets. -/
inductive SerialEvent where
  /-- `select` returns no more than zero: the timeout, or an error. -/
  | quiet
  /-- `read` returns bytes, as many as fit; none at all is the end of the file. -/
  | data (bytes : Bytes)
  /-- `read` fails with `EAGAIN` or `EINTR`. -/
  | again
  /-- `read` fails otherwise. -/
  | error
  deriving DecidableEq

/-- The loop of `read_with_timeout` with the bytes read so far: the return value, and the bytes
    then. It ends with the first five bytes, not with a whole response. -/
def readLoop (max : Nat) : List SerialEvent → Bytes → Int × Bytes
  | [], got => (got.length, got)
  | ev :: events, got =>
    if got.length < max then
      match ev with
      | .quiet => (got.length, got)
      | .again => readLoop max events got
      | .error => (-1, got)
      | .data bytes =>
        let n := min bytes.length (max - got.length)
        if n = 0 then (got.length, got)
        else if 5 ≤ got.length + n then (got.length + n, got ++ bytes.take n)
        else readLoop max events (got ++ bytes.take n)
    else (got.length, got)

/-- `read_with_timeout`. -/
def readWithTimeout (max : Nat) (events : List SerialEvent) : Int × Bytes := readLoop max events []

/-- `recv_crc`: the last two bytes of a frame, low byte first. -/
def recvCrc (frame : Bytes) : UInt16 :=
  (frame.getD (frame.length - 2) 0).toUInt16 ||| ((frame.getD (frame.length - 1) 0).toUInt16 <<< 8)

/-- The check of `modbus_serial_exchange`: the checksum of all but the last two bytes is the one
    in them. -/
def crcCheck (frame : Bytes) : Bool :=
  modbusCrc16 (frame.take (frame.length - 2)) == recvCrc frame

/-- `modbus_serial_exchange`: the return value, and what was read into `response`. `written` is
    the answer of `write`. -/
def modbusSerialExchange (fd : Int) (request : Bytes) (response_max : Nat) (written : Int)
    (events : List SerialEvent) : Int × Bytes :=
  if fd < 0 ∨ request.length < 4 ∨ response_max < 5 then (-1, [])
  else if written ≠ request.length then (-1, [])
  else
    let (n, response) := readWithTimeout response_max events
    if n < 5 then (-1, response)
    else if !crcCheck response then (-1, response)
    else (n, response)

end EdgeFlow
