import EdgeFlow.Lib.CText

/-!
# libmodbus, from a request to its registers (`third_party/libmodbus/src/modbus*.c`)

What stands behind `modbus_read_registers`, the one data call the gateway makes: the request, the
assembly of a response from whatever pieces the line delivers, the checks on it, and the
registers in it. A back end (serial line or TCP) is a record of functions and lengths, as the
library has it, and the rest is written over any back end.

The line is the stream of bytes it will deliver and, for each turn of the receive loop, what
`select` and `recv` answer. The recovery modes, the debug output and the indication timeout are
off unless asked for, and the gateway does not ask.
-/

set_option autoImplicit false

namespace EdgeFlow
namespace Libmodbus

open Lib

/-! ## The checksum -/

def tableCrcHi : List UInt8 :=
  [0x00, 0xC1, 0x81, 0x40, 0x01, 0xC0, 0x80, 0x41, 0x01, 0xC0, 0x80, 0x41, 0x00, 0xC1,
   0x81, 0x40, 0x01, 0xC0, 0x80, 0x41, 0x00, 0xC1, 0x81, 0x40, 0x00, 0xC1, 0x81, 0x40,
   0x01, 0xC0, 0x80, 0x41, 0x01, 0xC0, 0x80, 0x41, 0x00, 0xC1, 0x81, 0x40, 0x00, 0xC1,
   0x81, 0x40, 0x01, 0xC0, 0x80, 0x41, 0x00, 0xC1, 0x81, 0x40, 0x01, 0xC0, 0x80, 0x41,
   0x01, 0xC0, 0x80, 0x41, 0x00, 0xC1, 0x81, 0x40, 0x01, 0xC0, 0x80, 0x41, 0x00, 0xC1,
   0x81, 0x40, 0x00, 0xC1, 0x81, 0x40, 0x01, 0xC0, 0x80, 0x41, 0x00, 0xC1, 0x81, 0x40,
   0x01, 0xC0, 0x80, 0x41, 0x01, 0xC0, 0x80, 0x41, 0x00, 0xC1, 0x81, 0x40, 0x00, 0xC1,
   0x81, 0x40, 0x01, 0xC0, 0x80, 0x41, 0x01, 0xC0, 0x80, 0x41, 0x00, 0xC1, 0x81, 0x40,
   0x01, 0xC0, 0x80, 0x41, 0x00, 0xC1, 0x81, 0x40, 0x00, 0xC1, 0x81, 0x40, 0x01, 0xC0,
   0x80, 0x41, 0x01, 0xC0, 0x80, 0x41, 0x00, 0xC1, 0x81, 0x40, 0x00, 0xC1, 0x81, 0x40,
   0x01, 0xC0, 0x80, 0x41, 0x00, 0xC1, 0x81, 0x40, 0x01, 0xC0, 0x80, 0x41, 0x01, 0xC0,
   0x80, 0x41, 0x00, 0xC1, 0x81, 0x40, 0x00, 0xC1, 0x81, 0x40, 0x01, 0xC0, 0x80, 0x41,
   0x01, 0xC0, 0x80, 0x41, 0x00, 0xC1, 0x81, 0x40, 0x01, 0xC0, 0x80, 0x41, 0x00, 0xC1,
   0x81, 0x40, 0x00, 0xC1, 0x81, 0x40, 0x01, 0xC0, 0x80, 0x41, 0x00, 0xC1, 0x81, 0x40,
   0x01, 0xC0, 0x80, 0x41, 0x01, 0xC0, 0x80, 0x41, 0x00, 0xC1, 0x81, 0x40, 0x01, 0xC0,
   0x80, 0x41, 0x00, 0xC1, 0x81, 0x40, 0x00, 0xC1, 0x81, 0x40, 0x01, 0xC0, 0x80, 0x41,
   0x01, 0xC0, 0x80, 0x41, 0x00, 0xC1, 0x81, 0x40, 0x00, 0xC1, 0x81, 0x40, 0x01, 0xC0,
   0x80, 0x41, 0x00, 0xC1, 0x81, 0x40, 0x01, 0xC0, 0x80, 0x41, 0x01, 0xC0, 0x80, 0x41,
   0x00, 0xC1, 0x81, 0x40]

def tableCrcLo : List UInt8 :=
  [0x00, 0xC0, 0xC1, 0x01, 0xC3, 0x03, 0x02, 0xC2, 0xC6, 0x06, 0x07, 0xC7, 0x05, 0xC5,
   0xC4, 0x04, 0xCC, 0x0C, 0x0D, 0xCD, 0x0F, 0xCF, 0xCE, 0x0E, 0x0A, 0xCA, 0xCB, 0x0B,
   0xC9, 0x09, 0x08, 0xC8, 0xD8, 0x18, 0x19, 0xD9, 0x1B, 0xDB, 0xDA, 0x1A, 0x1E, 0xDE,
   0xDF, 0x1F, 0xDD, 0x1D, 0x1C, 0xDC, 0x14, 0xD4, 0xD5, 0x15, 0xD7, 0x17, 0x16, 0xD6,
   0xD2, 0x12, 0x13, 0xD3, 0x11, 0xD1, 0xD0, 0x10, 0xF0, 0x30, 0x31, 0xF1, 0x33, 0xF3,
   0xF2, 0x32, 0x36, 0xF6, 0xF7, 0x37, 0xF5, 0x35, 0x34, 0xF4, 0x3C, 0xFC, 0xFD, 0x3D,
   0xFF, 0x3F, 0x3E, 0xFE, 0xFA, 0x3A, 0x3B, 0xFB, 0x39, 0xF9, 0xF8, 0x38, 0x28, 0xE8,
   0xE9, 0x29, 0xEB, 0x2B, 0x2A, 0xEA, 0xEE, 0x2E, 0x2F, 0xEF, 0x2D, 0xED, 0xEC, 0x2C,
   0xE4, 0x24, 0x25, 0xE5, 0x27, 0xE7, 0xE6, 0x26, 0x22, 0xE2, 0xE3, 0x23, 0xE1, 0x21,
   0x20, 0xE0, 0xA0, 0x60, 0x61, 0xA1, 0x63, 0xA3, 0xA2, 0x62, 0x66, 0xA6, 0xA7, 0x67,
   0xA5, 0x65, 0x64, 0xA4, 0x6C, 0xAC, 0xAD, 0x6D, 0xAF, 0x6F, 0x6E, 0xAE, 0xAA, 0x6A,
   0x6B, 0xAB, 0x69, 0xA9, 0xA8, 0x68, 0x78, 0xB8, 0xB9, 0x79, 0xBB, 0x7B, 0x7A, 0xBA,
   0xBE, 0x7E, 0x7F, 0xBF, 0x7D, 0xBD, 0xBC, 0x7C, 0xB4, 0x74, 0x75, 0xB5, 0x77, 0xB7,
   0xB6, 0x76, 0x72, 0xB2, 0xB3, 0x73, 0xB1, 0x71, 0x70, 0xB0, 0x50, 0x90, 0x91, 0x51,
   0x93, 0x53, 0x52, 0x92, 0x96, 0x56, 0x57, 0x97, 0x55, 0x95, 0x94, 0x54, 0x9C, 0x5C,
   0x5D, 0x9D, 0x5F, 0x9F, 0x9E, 0x5E, 0x5A, 0x9A, 0x9B, 0x5B, 0x99, 0x59, 0x58, 0x98,
   0x88, 0x48, 0x49, 0x89, 0x4B, 0x8B, 0x8A, 0x4A, 0x4E, 0x8E, 0x8F, 0x4F, 0x8D, 0x4D,
   0x4C, 0x8C, 0x44, 0x84, 0x85, 0x45, 0x87, 0x47, 0x46, 0x86, 0x82, 0x42, 0x43, 0x83,
   0x41, 0x81, 0x80, 0x40]

/-- The body of the loop of `crc16`, on `(crc_hi, crc_lo)`. -/
def crcLookup (crc : UInt8 × UInt8) (byte : UInt8) : UInt8 × UInt8 :=
  let i := (crc.2 ^^^ byte).toNat
  (tableCrcLo.getD i 0, crc.1 ^^^ tableCrcHi.getD i 0)

/-- `crc16`. -/
def crc16 (buffer : Bytes) : UInt16 :=
  let (crc_hi, crc_lo) := buffer.foldl crcLookup (0xFF, 0xFF)
  crc_hi.toUInt16 <<< 8 ||| crc_lo.toUInt16

/-! ## Back ends -/

/-- `sft_t`: the slave, the function and the transaction of a message. -/
structure Sft where
  slave : UInt8
  function : UInt8
  t_id : UInt16

/-- `modbus_backend_t`. A request basis is `none` where its assertion fails. `check_integrity`
    returns the length of the message, `0` for one that is not for us, or `-1`. -/
structure Backend where
  header_length : Nat
  checksum_length : Nat
  max_adu_length : Nat
  set_slave : Int → Option Int
  build_request_basis :
    (slave : Int) → (t_id : UInt16) → (function : UInt8) → (addr nb : Nat) → Option Bytes
  build_response_basis : Sft → Bytes
  send_msg_pre : Bytes → Bytes
  check_integrity : (slave : Int) → Bytes → Int
  pre_check_confirmation : (req rsp : Bytes) → Bool

/-- The two bytes of a 16-bit number, high byte first. -/
def be16 (n : Nat) : Bytes := [UInt8.ofNat (n / 256), UInt8.ofNat (n % 256)]

/-- A byte of a message; behind its end the buffers hold nothing the callers rely on. -/
def byteAt (msg : Bytes) (i : Nat) : UInt8 := msg.getD i 0

/-- `_modbus_rtu_backend`. -/
def rtu : Backend where
  header_length := 1
  checksum_length := 2
  max_adu_length := 256
  set_slave slave := if 0 ≤ slave ∧ slave ≤ 247 then some slave else none
  build_request_basis slave _ function addr nb :=
    if slave = -1 then none
    else some ([UInt8.ofNat slave.toNat, function] ++ be16 addr ++ be16 nb)
  build_response_basis sft := [sft.slave, sft.function]
  send_msg_pre req := req ++ [(crc16 req &&& 0x00FF).toUInt8, (crc16 req >>> 8).toUInt8]
  check_integrity slave msg :=
    if (byteAt msg 0).toNat ≠ slave ∧ byteAt msg 0 ≠ 0 then 0
    else
      let n := msg.length
      let crc_received := (byteAt msg (n - 1)).toUInt16 <<< 8 ||| (byteAt msg (n - 2)).toUInt16
      if crc16 (msg.take (n - 2)) = crc_received then n else -1
  pre_check_confirmation req rsp := !(byteAt req 0 != byteAt rsp 0 && byteAt req 0 != 0)

/-- `_modbus_tcp_backend`. The length field is filled in by `send_msg_pre` and never read. -/
def tcp : Backend where
  header_length := 7
  checksum_length := 0
  max_adu_length := 260
  set_slave slave := if (0 ≤ slave ∧ slave ≤ 247) ∨ slave = 0xFF then some slave else none
  build_request_basis slave t_id function addr nb :=
    some (be16 t_id.toNat ++ [0, 0] ++ [0, 0] ++ [UInt8.ofNat slave.toNat, function] ++
      be16 addr ++ be16 nb)
  build_response_basis sft := be16 sft.t_id.toNat ++ [0, 0] ++ [0, 0] ++ [sft.slave, sft.function]
  send_msg_pre req := req.take 4 ++ be16 (req.length - 6) ++ req.drop 6
  check_integrity _ msg := msg.length
  pre_check_confirmation req rsp :=
    !(byteAt req 0 != byteAt rsp 0 || byteAt req 1 != byteAt rsp 1) &&
      byteAt rsp 2 == 0 && byteAt rsp 3 == 0

/-! ## Lengths -/

inductive MsgType where
  | indication | confirmation
  deriving DecidableEq

/-- `compute_meta_length_after_function`. -/
def computeMetaLengthAfterFunction (function : Nat) : MsgType → Nat
  | .indication =>
    if function ≤ 0x06 then 4
    else if function = 0x0F ∨ function = 0x10 then 5
    else if function = 0x16 then 6
    else if function = 0x17 then 9
    else 0
  | .confirmation =>
    if function = 0x05 ∨ function = 0x06 ∨ function = 0x0F ∨ function = 0x10 then 4
    else if function = 0x16 then 6
    else 1

section
variable (b : Backend)

/-- `compute_data_length_after_meta`. -/
def computeDataLengthAfterMeta (msg : Bytes) (msg_type : MsgType) : Nat :=
  let function := (byteAt msg b.header_length).toNat
  let length := match msg_type with
    | .indication =>
      if function = 0x0F ∨ function = 0x10 then (byteAt msg (b.header_length + 5)).toNat
      else if function = 0x17 then (byteAt msg (b.header_length + 9)).toNat
      else 0
    | .confirmation =>
      if function ≤ 0x04 ∨ function = 0x11 ∨ function = 0x17 then
        (byteAt msg (b.header_length + 1)).toNat
      else 0
  length + b.checksum_length

/-- The 16-bit number at `i`. -/
def wordAt (msg : Bytes) (i : Nat) : Nat := (byteAt msg i).toNat * 256 + (byteAt msg (i + 1)).toNat

/-- `compute_response_length_from_request`; `none` is `MSG_LENGTH_UNDEFINED`. -/
def computeResponseLengthFromRequest (req : Bytes) : Option Nat :=
  let offset := b.header_length
  let function := (byteAt req offset).toNat
  let nb := wordAt req (offset + 3)
  let length : Option Nat :=
    if function = 0x01 ∨ function = 0x02 then some (2 + nb / 8 + if nb % 8 = 0 then 0 else 1)
    else if function = 0x17 ∨ function = 0x03 ∨ function = 0x04 then some (2 + 2 * nb)
    else if function = 0x07 then some 3
    else if function = 0x11 then none
    else if function = 0x16 then some 7
    else some 5
  length.map fun length => offset + length + b.checksum_length

/-! ## Receiving -/

inductive RecvStep where
  | function | metaData | data
  deriving DecidableEq

/-- The switch at the end of a step: how much to read next, and the step that is; `none` is "too
    many data". A function without meta information falls through to the next step. -/
def nextStep (msg_type : MsgType) (step : RecvStep) (msg : Bytes) : Option (Nat × RecvStep) :=
  let afterMeta :=
    let n := computeDataLengthAfterMeta b msg msg_type
    if b.max_adu_length < msg.length + n then none else some (n, RecvStep.data)
  match step with
  | .function =>
    let n := computeMetaLengthAfterFunction (byteAt msg b.header_length).toNat msg_type
    if n ≠ 0 then some (n, .metaData) else afterMeta
  | .metaData => afterMeta
  | .data => some (0, .data)

/-- What `select` and `recv` answer in one turn: nothing within the timeout or an error, or up to
    `n` bytes (at least one); at the end of the stream `recv` returns zero. -/
inductive RecvAnswer where
  | ready (n : Nat)
  | fails
  deriving DecidableEq

/-- The loop of `_modbus_receive_msg`, with `length_to_read` bytes to go in this step; `none` is
    `-1`. The bytes not taken stay on the line. -/
def receiveLoop (msg_type : MsgType) : List RecvAnswer → (length_to_read : Nat) → RecvStep →
    (msg stream : Bytes) → Option (Bytes × Bytes)
  | _, 0, _, msg, stream => some (msg, stream)
  | [], _ + 1, _, _, _ => none
  | .fails :: _, _ + 1, _, _, _ => none
  | .ready n :: answers, left + 1, step, msg, stream =>
    let got := stream.take (max 1 (min n (left + 1)))
    if got = [] then none
    else
      let msg := msg ++ got
      let stream := stream.drop got.length
      if left + 1 - got.length = 0 then
        match nextStep b msg_type step msg with
        | none => none
        | some (n, step) => receiveLoop msg_type answers n step msg stream
      else receiveLoop msg_type answers (left + 1 - got.length) step msg stream

/-- `_modbus_receive_msg` up to its check: the message, and what is left on the line. -/
def receiveMsg (msg_type : MsgType) (answers : List RecvAnswer) (stream : Bytes) :
    Option (Bytes × Bytes) :=
  receiveLoop b msg_type answers (b.header_length + 1) .function [] stream

/-! ## Checking -/

/-- The numbers of values `check_confirmation` compares, and whether the address and the data
    the response echoes are those of the request. -/
def confirmedValues (req rsp : Bytes) : Nat × Nat × Bool × Bool :=
  let offset := b.header_length
  let function := (byteAt rsp offset).toNat
  let same := fun i => byteAt req (offset + i) == byteAt rsp (offset + i)
  if function = 0x01 ∨ function = 0x02 then
    let nb := wordAt req (offset + 3)
    (nb / 8 + (if nb % 8 = 0 then 0 else 1), (byteAt rsp (offset + 1)).toNat, true, true)
  else if function = 0x17 ∨ function = 0x03 ∨ function = 0x04 then
    (wordAt req (offset + 3), (byteAt rsp (offset + 1)).toNat / 2, true, true)
  else if function = 0x0F ∨ function = 0x10 then
    (wordAt req (offset + 3), wordAt rsp (offset + 3), same 1 && same 2, true)
  else if function = 0x11 then
    ((byteAt rsp (offset + 1)).toNat, (byteAt rsp (offset + 1)).toNat, true, true)
  else if function = 0x05 ∨ function = 0x06 then (1, 1, same 1 && same 2, same 3 && same 4)
  else (1, 1, true, true)

/-- `check_confirmation`: the number of values, or `-1`. -/
def checkConfirmation (req rsp : Bytes) (rsp_length : Int) : Int :=
  let offset := b.header_length
  let function := byteAt rsp offset
  if !b.pre_check_confirmation req rsp then -1
  else if 0x80 ≤ function then -1
  else
    let computed := computeResponseLengthFromRequest b req
    if computed = none ∨ computed.map Int.ofNat = some rsp_length then
      if function ≠ byteAt req offset then -1
      else
        let (req_nb_value, rsp_nb_value, resp_addr_ok, resp_data_ok) := confirmedValues b req rsp
        if req_nb_value = rsp_nb_value ∧ resp_addr_ok ∧ resp_data_ok then rsp_nb_value else -1
    else -1

/-! ## Reading registers -/

/-- `modbus_t`, as far as a read uses it. -/
structure Ctx where
  slave : Int
  t_id : UInt16
  deriving DecidableEq

/-- How a read ends: the process is gone at an assertion, or a return value with the registers
    stored. -/
inductive ReadResult where
  | aborted
  | returns (rc : Int) (dest : List UInt16)
  deriving DecidableEq

/-- `dest[i]` for `i < n`. -/
def registersOf (rsp : Bytes) (n : Nat) : List UInt16 :=
  (List.range n).map fun i =>
    ((byteAt rsp (b.header_length + 2 + 2 * i)).toUInt16 <<< 8) |||
      (byteAt rsp (b.header_length + 3 + 2 * i)).toUInt16

/-- `modbus_read_registers` with `read_registers`: `sent` is what `send` answers, as a function
    of the request; the transaction number is the one after the context's. -/
def modbusReadRegisters (ctx : Ctx) (addr nb : Nat) (sent : Bytes → Int)
    (answers : List RecvAnswer) (stream : Bytes) : ReadResult :=
  if 125 < nb then .returns (-1) []
  else
    match b.build_request_basis ctx.slave (ctx.t_id + 1) 0x03 addr nb with
    | none => .aborted
    | some basis =>
      let req := b.send_msg_pre basis
      let rc := sent req
      if 0 < rc ∧ rc ≠ req.length then .returns (-1) []
      else if 0 < rc then
        match receiveMsg b .confirmation answers stream with
        | none => .returns (-1) []
        | some (rsp, _) =>
          let rsp_length := b.check_integrity ctx.slave rsp
          if rsp_length = -1 then .returns (-1) []
          else
            let rc := checkConfirmation b req rsp rsp_length
            if rc = -1 then .returns (-1) [] else .returns rc (registersOf b rsp rc.toNat)
      else .returns rc []

/-- The registers a slave answers a read with, as `modbus_reply` builds the response. -/
def readReply (sft : Sft) (regs : List UInt16) : Bytes :=
  b.send_msg_pre (b.build_response_basis sft ++ UInt8.ofNat (2 * regs.length) ::
    regs.flatMap fun reg => be16 reg.toNat)

end

end Libmodbus
end EdgeFlow
