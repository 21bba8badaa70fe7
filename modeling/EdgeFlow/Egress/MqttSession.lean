import EdgeFlow.Lib.Prog
import EdgeFlow.Platform.Storage

/-!
# The MQTT session (`src/egress/mqtt_session.*`)

The functions of the file, in its order, as programs over `Net`: the session's own fields, and
the kernel's side of every connection it has ever opened.

**What the outside does is a list of events.** Every system call takes the next one: whether
it succeeded, how many bytes a `write` took, what a `read` returned, and whether a reset from the
broker arrived just before. When the list is empty the call has not returned
yet (`Halt.blocked`), so the states reached inside a call are the states of runs whose list
ends there. A `write` on a connection that has been reset raises SIGPIPE, and a process that
neither ignores nor handles it is gone (`Halt.killed`). A broker that closes its end in good
order is not noticed by the next `write`: the kernel takes the bytes, the broker answers them with
a reset, and it is the `write` after that which raises the signal.

A file descriptor is the number of the connection it stands for, and `none` is `-1`. The
kernel may reuse a number after `close`; the code only ever asks whether it is negative.

`sends` and `ops` record what the program did and are read by no function.
-/

set_option autoImplicit false

namespace EdgeFlow

open Lib

variable {V : Type}

/-! ## The kernel's side -/

inductive Signal where
  | sigint | sigterm | sighup | sigpipe
  deriving DecidableEq, Repr

/-- One TCP connection. -/
structure Conn where
  /-- The bytes `write` has accepted. -/
  sent : Bytes
  /-- This end has closed it. -/
  closed : Bool
  /-- The broker has reset it, of its own accord or in answer to bytes sent after it had closed
      its end. -/
  gone : Bool
  deriving DecidableEq

/-- The answer to one system call. `n` is for `write`, `data` for `read`. -/
inductive Answer where
  | ok (n : Nat) (data : Bytes)
  | eintr
  | fail
  deriving DecidableEq

structure Event where
  /-- A reset from the broker arrives before this call. -/
  resets : Bool
  answer : Answer
  deriving DecidableEq

inductive Halt where
  | blocked
  | killed
  deriving DecidableEq

/-- What one of the three `mqtt_send_*` functions sends. -/
inductive Sent where
  | connect (client_id : Bytes) (keepalive_sec : UInt16)
  | publish (topic payload : Bytes)
  | ping
  deriving DecidableEq

/-- What a system call does to the socket it is given. -/
inductive SocketOp where
  | opened | wrote | read | closed
  deriving DecidableEq, Repr

/-- `mqtt_session_t` and the sockets behind it. -/
structure Net (V : Type) where
  cfg : GatewayConfig V
  fd : Option Nat
  connected : Bool
  /-- Every connection so far; a descriptor is an index. -/
  conns : List Conn
  /-- The signals the process ignores or handles. -/
  handled : List Signal
  events : List Event
  /-- The sends whose `mqtt_write_all` returned `0`, with their connection. -/
  sends : List (Nat × Sent)
  /-- The `socket`, `write`, `read` and `close` calls, each with its connection. -/
  ops : List (SocketOp × Nat)

abbrev Sys (V : Type) (α : Type) : Type := Prog (Net V) Halt α

def Net.modConn (s : Net V) (fd : Nat) (f : Conn → Conn) : Net V :=
  { s with conns := s.conns.modify fd f }

/-- Whether the broker's end of a connection is gone. -/
def Net.goneAt (s : Net V) (fd : Nat) : Bool := (s.conns[fd]?.map Conn.gone).getD false

/-- The record of one more call on a socket. -/
def Net.logOp (s : Net V) (op : SocketOp) (fd : Nat) : Net V :=
  { s with ops := s.ops ++ [(op, fd)] }

/-- The next event, or the call does not return. -/
def nextEvent : Sys V Event := fun s =>
  match s.events with
  | [] => (.error .blocked, s)
  | ev :: evs => (.ok ev, { s with events := evs })

/-- A call that only succeeds or fails: `inet_pton`, `connect`, an SQLite statement. -/
def sysOk : Sys V Bool := do
  let ev ← nextEvent
  pure (match ev.answer with
    | .ok _ _ => true
    | _ => false)

/-- `socket`: a fresh connection. -/
def sysSocket : Sys V (Option Nat) := do
  if ← sysOk then
    let s ← Prog.get
    Prog.modify fun s =>
      Net.logOp { s with conns := s.conns ++ [⟨[], false, false⟩] } .opened s.conns.length
    pure (some s.conns.length)
  else pure none

def sysClose (fd : Nat) : Sys V Unit :=
  Prog.modify fun s => (s.modConn fd fun c => { c with closed := true }).logOp .closed fd

/-- The broker's move before a call on `fd`. -/
def brokerMove (fd : Nat) (resets : Bool) (s : Net V) : Net V :=
  if resets then s.modConn fd fun c => { c with gone := true } else s

inductive WriteResult where
  | took (n : Nat)
  | eintr
  | error
  deriving DecidableEq

/-- `write` of a non-empty buffer: SIGPIPE if the broker's end is gone, else at least one byte,
    or EINTR, or a hard error. -/
def sysWrite (fd : Nat) (buf : Bytes) : Sys V WriteResult := do
  let ev ← nextEvent
  Prog.modify (brokerMove fd ev.resets)
  let s ← Prog.get
  Prog.modify fun s => s.logOp .wrote fd
  if s.goneAt fd then
    if .sigpipe ∈ s.handled then pure .error else Prog.stop .killed
  else match ev.answer with
    | .ok n _ =>
      let k := max 1 (min n buf.length)
      Prog.modify fun s => s.modConn fd fun c => { c with sent := c.sent ++ buf.take k }
      pure (.took k)
    | .eintr => pure .eintr
    | .fail => pure .error

/-- `read` into a buffer of `size` bytes; `none` is an error. -/
def sysRead (fd : Nat) (size : Nat) : Sys V (Option Bytes) := do
  let ev ← nextEvent
  Prog.modify fun s => (brokerMove fd ev.resets s).logOp .read fd
  pure (match ev.answer with
    | .ok _ data => some (data.take size)
    | _ => none)

/-! ## Writing packets -/

/-- The loop of `mqtt_write_all` on the bytes still to go. Every turn takes one event, so
    `fuel` turns are as many as there are events; running out of either is a `write` that does
    not return. -/
def writeLoop (fd : Nat) : Nat → Bytes → Sys V Bool
  | _, [] => pure true
  | 0, _ :: _ => Prog.stop .blocked
  | fuel + 1, buf => do
    match ← sysWrite fd buf with
    | .took n => writeLoop fd fuel (buf.drop n)
    | .eintr => writeLoop fd fuel buf
    | .error => pure false

/-- `mqtt_write_all`; `true` is `0`. -/
def mqttWriteAll (fd : Nat) (buf : Bytes) : Sys V Bool := do
  let s ← Prog.get
  writeLoop fd s.events.length buf

/-- The do-while of `mqtt_encode_remaining_length`, with `room` bytes left of the four. -/
def encodeLoop : Nat → Nat → Bytes
  | 0, _ => []
  | room + 1, remaining =>
    if 0 < remaining / 128 then
      (UInt8.ofNat (remaining % 128) ||| 0x80) :: encodeLoop room (remaining / 128)
    else [UInt8.ofNat (remaining % 128)]

/-- `mqtt_encode_remaining_length`. -/
def mqttEncodeRemainingLength (remaining : Nat) : Bytes := encodeLoop 4 remaining

/-- The high and the low byte of a 16-bit field. -/
def word16 (n : Nat) : Bytes := [UInt8.ofNat (n / 256), UInt8.ofNat (n % 256)]

def connectBytes (client_id : Bytes) (keepalive_sec : UInt16) : Bytes :=
  0x10 :: (mqttEncodeRemainingLength (10 + 2 + client_id.length) ++
    ([0x00, 0x04] ++ ascii "MQTT" ++ [0x04, 0x02] ++ word16 keepalive_sec.toNat ++
      word16 client_id.length ++ client_id))

def publishBytes (topic payload : Bytes) : Bytes :=
  0x30 :: (mqttEncodeRemainingLength (2 + topic.length + payload.length) ++
    (word16 topic.length ++ topic ++ payload))

/-- The bytes of a send. -/
def Sent.bytes : Sent → Bytes
  | .connect client_id keepalive_sec => connectBytes client_id keepalive_sec
  | .publish topic payload => publishBytes topic payload
  | .ping => [0xC0, 0x00]

/-- The buffer a send is built in, and whether its size check lets it through. -/
def Sent.fits : Sent → Bool
  | .connect client_id _ =>
    let remaining := 10 + 2 + client_id.length
    decide (1 + (mqttEncodeRemainingLength remaining).length + remaining ≤ 160)
  | .publish topic payload =>
    let remaining := 2 + topic.length + payload.length
    decide (1 + (mqttEncodeRemainingLength remaining).length + remaining ≤ 1024)
  | .ping => true

/-- The common part of the three senders: refuse what does not fit, write the rest. -/
def mqttSend (fd : Nat) (x : Sent) : Sys V Bool := do
  if x.fits then
    if ← mqttWriteAll fd x.bytes then
      Prog.modify fun s => { s with sends := s.sends ++ [(fd, x)] }
      pure true
    else pure false
  else pure false

/-- `mqtt_send_connect`: after the write, one `read` must bring at least four bytes, the first
    `0x20` and the fourth `0x00`. -/
def mqttSendConnect (fd : Nat) (client_id : Bytes) (keepalive_sec : UInt16) : Sys V Bool := do
  if ← mqttSend fd (.connect client_id keepalive_sec) then
    match ← sysRead fd 160 with
    | none => pure false
    | some data =>
      if data.length < 4 then pure false
      else pure (decide (data[0]? = some 0x20 ∧ data[3]? = some 0x00))
  else pure false

/-- `mqtt_send_ping`. -/
def mqttSendPing (fd : Nat) : Sys V Bool := mqttSend fd .ping

/-! ## Connecting -/

/-- `mqtt_open_tcp`. -/
def mqttOpenTcp : Sys V (Option Nat) := do
  match ← sysSocket with
  | none => pure none
  | some fd =>
    -- `inet_pton`, then `connect`
    if ← sysOk then
      if ← sysOk then pure (some fd)
      else
        sysClose fd
        pure none
    else
      sysClose fd
      pure none

/-- `mqtt_session_init`. -/
def mqttSessionInit (cfg : GatewayConfig V) (handled : List Signal) : Net V where
  cfg := cfg
  fd := none
  connected := false
  conns := []
  handled := handled
  events := []
  sends := []
  ops := []

/-- `mqtt_shutdown_locked`. -/
def mqttShutdownLocked : Sys V Unit := do
  let s ← Prog.get
  match s.fd with
  | some fd => sysClose fd
  | none => pure ()
  Prog.modify fun s => { s with fd := none, connected := false }

/-- The client id `mqtt_ensure_connected_locked` prints into its 64-byte buffer. -/
def clientId (cfg : GatewayConfig V) : Bytes :=
  snprintf 64 (ascii "edgeflow-" ++ cfg.device_id.bytes)

/-- `mqtt_ensure_connected_locked`; the keep-alive setting is cast to 16 bits. -/
def mqttEnsureConnectedLocked : Sys V Bool := do
  let s ← Prog.get
  if s.connected && s.fd.isSome then pure true
  else
    mqttShutdownLocked
    match ← mqttOpenTcp with
    | none =>
      Prog.modify fun s => { s with fd := none, connected := false }
      pure false
    | some fd =>
      Prog.modify fun s => { s with fd := some fd }
      if ← mqttSendConnect fd (clientId s.cfg) s.cfg.mqtt_keepalive_sec.toUInt16 then
        Prog.modify fun s => { s with connected := true }
        pure true
      else
        mqttShutdownLocked
        pure false

/-! ## The session's calls

Each runs with the session mutex held from its first access of `fd` and `connected` to its
last, so the calls of the two threads follow one another in lock order. -/

/-- The text of `telemetry_to_json` up to the quality value. -/
def telemetryJsonHead [CDouble V] (p : Telemetry V) : Bytes :=
  ascii "\x7b\"device_id\":\"" ++ p.device_id.bytes ++
    ascii "\",\"point_id\":\"" ++ p.point_id.bytes ++
    ascii "\",\"value\":" ++ CDouble.fmtF4 p.value ++
    ascii ",\"unit\":\"" ++ p.unit.bytes ++
    ascii "\",\"ts_ms\":" ++ dec p.ts_ms.toNat ++
    ascii ",\"quality\":\""

/-- `telemetry_to_json` into a buffer of `out_len` bytes. -/
def telemetryToJson [CDouble V] (p : Telemetry V) (out_len : Nat) : Bytes :=
  snprintf out_len (telemetryJsonHead p ++ (telemetryQualityToString p.quality ++ ascii "\"\x7d"))

/-- A send on the session's descriptor; a failed one closes the session. -/
def sendOrShutdown (x : Sent) : Sys V Bool := do
  let s ← Prog.get
  match s.fd with
  | none => pure false
  | some fd =>
    if ← mqttSend fd x then pure true
    else
      mqttShutdownLocked
      pure false

/-- `mqtt_session_shutdown`. -/
def mqttSessionShutdown : Sys V Unit := mqttShutdownLocked

/-- `mqtt_session_ensure_connected`. -/
def mqttSessionEnsureConnected : Sys V Bool := mqttEnsureConnectedLocked

/-- `mqtt_session_publish_telemetry`. -/
def mqttSessionPublishTelemetry [CDouble V] (p : Telemetry V) : Sys V Bool := do
  let s ← Prog.get
  if ← mqttEnsureConnectedLocked then
    sendOrShutdown (.publish s.cfg.mqtt_topic.bytes (telemetryToJson p 384))
  else pure false

/-- `mqtt_session_publish_heartbeat`. -/
def mqttSessionPublishHeartbeat (payload : Bytes) : Sys V Bool := do
  let s ← Prog.get
  if ← mqttEnsureConnectedLocked then
    sendOrShutdown (.publish s.cfg.mqtt_heartbeat_topic.bytes payload)
  else pure false

/-- `mqtt_session_ping`. -/
def mqttSessionPing : Sys V Bool := do
  let s ← Prog.get
  if s.connected && s.fd.isSome then sendOrShutdown .ping else pure false

/-- The batch `mqtt_session_replay_pending` asks for. -/
def replayBatch (cfg : GatewayConfig V) : Nat :=
  let batch := if cfg.mqtt_replay_batch = 0 then 50 else cfg.mqtt_replay_batch.toNat
  if 64 < batch then 64 else batch

/-- The loop of `mqtt_session_replay_pending` over the fetched rows, on `replayed` so far: stop
    at the first failed publish, count the rows whose mark succeeded. -/
def replayRows {m : Type → Type} [Monad m] (publish : Telemetry V → m Bool)
    (mark : Nat → m Bool) : Nat → List (StorageTelemetryRow V) → m Nat
  | replayed, [] => pure replayed
  | replayed, r :: rows => do
    if ← publish r.point then
      if ← mark r.row_id then replayRows publish mark (replayed + 1) rows
      else replayRows publish mark replayed rows
    else pure replayed

/-- The publish of one replayed row. -/
def replayPublish [CDouble V] (p : Telemetry V) : Sys V Bool := do
  let s ← Prog.get
  sendOrShutdown (.publish s.cfg.mqtt_topic.bytes (telemetryToJson p 384))

/-- The critical section of `mqtt_session_replay_pending` on rows fetched before the lock was
    taken. The session does not see what SQLite does with a mark, only when it answers. -/
def mqttReplayLocked [CDouble V] (rows : List (StorageTelemetryRow V)) : Sys V Nat := do
  if ← mqttEnsureConnectedLocked then replayRows replayPublish (fun _ => sysOk) 0 rows
  else pure 0

/-! ## Runs -/

/-- The calls the two threads make. A replay is given the rows it fetched before the lock. -/
inductive SessionCall (V : Type) where
  | ensureConnected
  | publishTelemetry (p : Telemetry V)
  | publishHeartbeat (payload : Bytes)
  | replayPending (rows : List (StorageTelemetryRow V))
  | ping
  | shutdown

/-- The value a call returns, `0` for the one that returns none. -/
def SessionCall.rc [CDouble V] : SessionCall V → Sys V Int
  | .ensureConnected => do
    pure (if ← mqttSessionEnsureConnected then 0 else -1)
  | .publishTelemetry p => do
    pure (if ← mqttSessionPublishTelemetry p then 0 else -1)
  | .publishHeartbeat payload => do
    pure (if ← mqttSessionPublishHeartbeat payload then 0 else -1)
  | .replayPending rows => do
    let replayed ← mqttReplayLocked rows
    pure replayed
  | .ping => do
    pure (if ← mqttSessionPing then 0 else -1)
  | .shutdown => do
    mqttSessionShutdown
    pure 0

/-- A call that has returned: its value, and the session as it left it. -/
structure Returned (V : Type) where
  call : SessionCall V
  rc : Int
  net : Net V

/-- How far a list of calls got. -/
structure SessionTrace (V : Type) where
  returned : List (Returned V)
  /-- The call that has not returned, and why. -/
  halted : Option (SessionCall V × Halt)
  net : Net V

/-- Calls in lock order, each with what the outside does during it; a call that does not return
    is the last one. -/
def sessionTrace [CDouble V] (s : Net V) : List (SessionCall V × List Event) → SessionTrace V
  | [] => ⟨[], none, s⟩
  | (call, events) :: calls =>
    match call.rc { s with events := events } with
    | (.ok rc, s') =>
      let t := sessionTrace s' calls
      { t with returned := ⟨call, rc, s'⟩ :: t.returned }
    | (.error h, s') => ⟨[], some (call, h), s'⟩

/-- The session the calls leave, and how the last one ended if it did not return. -/
def sessionRun [CDouble V] (s : Net V) (calls : List (SessionCall V × List Event)) :
    Net V × Option Halt :=
  let t := sessionTrace s calls
  (t.net, t.halted.map Prod.snd)

theorem sessionRun_cons [CDouble V] (s : Net V) (call : SessionCall V) (events : List Event)
    (calls : List (SessionCall V × List Event)) :
    sessionRun s ((call, events) :: calls) =
      match call.rc { s with events := events } with
      | (.ok _, s') => sessionRun s' calls
      | (.error h, s') => (s', some h) := by
  unfold sessionRun
  rw [sessionTrace]
  rcases call.rc { s with events := events } with ⟨_ | _, s'⟩
  · rfl
  · rfl

end EdgeFlow
