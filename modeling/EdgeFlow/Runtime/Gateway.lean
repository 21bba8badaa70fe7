import EdgeFlow.Runtime.Main
import EdgeFlow.Runtime.Worker

/-!
# Worker and monitor (`src/runtime/app.c`)

The two threads that share the store and the MQTT session. The worker's body is cut at every
statement on the store and at the session lock; the monitor's `mqtt_session_replay_pending` at
its fetch, the lock, and each publish and each mark of its loop, which runs with the lock held.
A session call is one step from lock to unlock, since nobody else can touch the session
meanwhile; the store is not behind that lock, so the other thread's statements do come in
between a call's lock and its end.

A move carries what the outside decided: the point the ring gave, the events of a session
call, the answer of SQLite to a read or a mark. The answers to inserts and to `write_command`
are the environment's.
-/

set_option autoImplicit false

namespace EdgeFlow

open Lib

variable {V : Type}

inductive Thread where
  | worker
  | monitor
  deriving DecidableEq, Repr

/-- Where `worker_main` is with the point it popped. -/
inductive WorkerPc (V : Type) where
  | idle
  | insert (p : Telemetry V)
  /-- The `INSERT` is done; `sqlite3_last_insert_rowid` is still to be read. -/
  | rowid (p : Telemetry V) (r : InsertResult)
  | engine (p : Telemetry V) (row_id : Nat)
  | alarm (p : Telemetry V) (row_id : Nat) (r : ProcessResult V)
  | submit (p : Telemetry V) (row_id : Nat) (r : ProcessResult V)
  | tick (p : Telemetry V) (row_id : Nat) (adapter : DeviceAdapter) (pending : List (Command V))
  | publish (p : Telemetry V) (row_id : Nat)
  /-- Inside `mqtt_session_publish_telemetry`, with the lock. -/
  | publishing (p : Telemetry V) (row_id : Nat)
  /-- Published, `row_id > 0`. -/
  | mark (p : Telemetry V) (row_id : Nat)

/-- Where `monitor_on_timer` is. -/
inductive MonitorPc (V : Type) where
  | idle
  /-- Rows fetched, the lock not yet taken. -/
  | fetched (rows : List (StorageTelemetryRow V))
  /-- With the lock, before `mqtt_ensure_connected_locked`. -/
  | connecting (rows : List (StorageTelemetryRow V))
  | replaying (rows : List (StorageTelemetryRow V))
  /-- The row is published and not yet marked. -/
  | marking (r : StorageTelemetryRow V) (rows : List (StorageTelemetryRow V))
  | unlocking
  | ping
  | pinging
  | heartbeat
  | beating

/-- The heartbeat `monitor_on_timer` prints: `edgeflow_now_ms`, and the pending count as an
    `unsigned int`. -/
def heartbeatText (cfg : GatewayConfig V) (now pending : UInt64) : Bytes :=
  ascii "\x7b\"device_id\":\"" ++ cfg.device_id.bytes ++
    ascii "\",\"ts_ms\":" ++ dec now.toNat ++
    ascii ",\"pending\":" ++ dec pending.toUInt32.toNat ++ ascii "\x7d"

/-- `hb_payload`. -/
def heartbeatPayload (cfg : GatewayConfig V) (now pending : UInt64) : Bytes :=
  snprintf 128 (heartbeatText cfg now pending)

/-- A successful publish of a point: by whom, and for which row (`0` for none). -/
structure Upload (V : Type) where
  thread : Thread
  row_id : Nat
  point : Telemetry V

structure Gateway (V : Type) where
  ctl : Control V
  net : Net V
  lock : Option Thread
  worker : WorkerPc V
  monitor : MonitorPc V
  /-- The points the worker has popped. -/
  popped : List (Telemetry V)
  /-- Engine and scheduler after each point. -/
  trail : List (StateEngine V × CommandScheduler V)
  /-- The successful publishes of points so far. -/
  uploads : List (Upload V)

/-- After `gateway_app_init`, on the database it found. -/
def gatewayStart [CDouble V] (cfg : GatewayConfig V) (db : Storage V) : Gateway V where
  ctl := controlInit db
  net := mqttSessionInit cfg mainSignals
  lock := none
  worker := .idle
  monitor := .idle
  popped := []
  trail := []
  uploads := []

/-- What the worker does on its own: a statement on the store, or a call of its own modules. -/
def localStep [CDouble V] (env : StorageEnv) (cfg : GatewayConfig V) (reg : AdapterRegistry)
    (c : Control V) : WorkerPc V → Option (WorkerPc V × Control V)
  | .insert p =>
    let (r, c) := workerInsert env c p
    some (.rowid p r, c)
  | .rowid p r => some (.engine p (storageAppendResult c.db r).2, c)
  | .engine p row_id =>
    let (r, c) := workerEngine cfg c p
    some (.alarm p row_id r, c)
  | .alarm p row_id r => some (.submit p row_id r, workerAlarm env c r)
  | .submit p row_id r =>
    match workerSubmit reg c r with
    | (none, c) => some (.publish p row_id, c)
    | (some (adapter, pending), c) => some (.tick p row_id adapter pending, c)
  | .tick p row_id _ [] => some (.publish p row_id, c)
  | .tick p row_id adapter (cmd :: pending) =>
    some (.tick p row_id adapter pending, workerTick env adapter c cmd)
  | _ => none

/-- The worker has come to the publish. -/
def WorkerPc.atPublish : WorkerPc V → Bool
  | .publish _ _ => true
  | _ => false

inductive WorkerMove (V : Type) where
  | pop (p : Telemetry V)
  | own
  | lock
  | publish (events : List Event)
  | mark (ok : Bool)

inductive MonitorMove where
  | fetch (stepped : Option Nat)
  | lock
  | connect (events : List Event)
  | publish (events : List Event)
  | mark (ok : Bool)
  | unlock
  | ping (events : List Event)
  | heartbeat (payload : Bytes) (events : List Event)

/-- A session call with what the outside does during it; no step if it does not return. -/
def Gateway.call {α : Type} (s : Gateway V) (x : Sys V α) (events : List Event) :
    Option (α × Net V) :=
  x.result { s.net with events := events }

section
variable [CDouble V] (env : StorageEnv) (cfg : GatewayConfig V) (reg : AdapterRegistry)

/-- One step of `worker_main`. -/
def Gateway.workerStep (s : Gateway V) : WorkerMove V → Option (Gateway V)
  | .pop p =>
    match s.worker with
    | .idle =>
      some { s with worker := .insert (applyQualityRules cfg p), popped := s.popped ++ [p] }
    | _ => none
  | .own =>
    (localStep env cfg reg s.ctl s.worker).map fun r =>
      { s with
        worker := r.1
        ctl := r.2
        trail := if r.1.atPublish then s.trail ++ [(r.2.engine, r.2.scheduler)] else s.trail }
  | .lock =>
    match s.worker, s.lock with
    | .publish p row_id, none =>
      some { s with worker := .publishing p row_id, lock := some .worker }
    | _, _ => none
  | .publish events =>
    match s.worker with
    | .publishing p row_id =>
      (s.call (mqttSessionPublishTelemetry p) events).map fun r =>
        { s with
          net := r.2
          lock := none
          worker := if r.1 && decide (0 < row_id) then .mark p row_id else .idle
          uploads := if r.1 then s.uploads ++ [⟨.worker, row_id, p⟩] else s.uploads }
    | _ => none
  | .mark ok =>
    match s.worker with
    | .mark _ row_id =>
      some { s with
        worker := .idle
        ctl := { s.ctl with db := (storageMarkTelemetryUploaded s.ctl.db row_id ok).2 } }
    | _ => none

/-- One step of `monitor_on_timer`. -/
def Gateway.monitorStep (s : Gateway V) : MonitorMove → Option (Gateway V)
  | .fetch stepped =>
    match s.monitor with
    | .idle =>
      match storageFetchPendingTelemetry s.ctl.db (replayBatch cfg) stepped with
      | none => some { s with monitor := .ping }
      | some rows => some { s with monitor := .fetched rows }
    | _ => none
  | .lock =>
    match s.monitor, s.lock with
    | .fetched rows, none => some { s with monitor := .connecting rows, lock := some .monitor }
    | .ping, none => some { s with monitor := .pinging, lock := some .monitor }
    | .heartbeat, none => some { s with monitor := .beating, lock := some .monitor }
    | _, _ => none
  | .connect events =>
    match s.monitor with
    | .connecting rows =>
      (s.call mqttEnsureConnectedLocked events).map fun r =>
        { s with net := r.2, monitor := if r.1 then .replaying rows else .unlocking }
    | _ => none
  | .publish events =>
    match s.monitor with
    | .replaying (r :: rows) =>
      (s.call (replayPublish r.point) events).map fun x =>
        { s with
          net := x.2
          monitor := if x.1 then .marking r rows else .unlocking
          uploads := if x.1 then s.uploads ++ [⟨.monitor, r.row_id, r.point⟩] else s.uploads }
    | _ => none
  | .mark ok =>
    match s.monitor with
    | .marking r rows =>
      some { s with
        monitor := .replaying rows
        ctl := { s.ctl with db := (storageMarkTelemetryUploaded s.ctl.db r.row_id ok).2 } }
    | _ => none
  | .unlock =>
    match s.monitor with
    | .replaying [] => some { s with monitor := .ping, lock := none }
    | .unlocking => some { s with monitor := .ping, lock := none }
    | _ => none
  | .ping events =>
    match s.monitor with
    | .pinging =>
      (s.call mqttSessionPing events).map fun r =>
        { s with net := r.2, lock := none, monitor := .heartbeat }
    | _ => none
  | .heartbeat payload events =>
    match s.monitor with
    | .beating =>
      (s.call (mqttSessionPublishHeartbeat payload) events).map fun r =>
        { s with net := r.2, lock := none, monitor := .idle }
    | _ => none

inductive GatewayAct (V : Type) where
  | worker (a : WorkerMove V)
  | monitor (a : MonitorMove)

/-- A step of either thread. -/
def gatewayStep (s : Gateway V) : GatewayAct V → Option (Gateway V)
  | .worker a => s.workerStep env cfg reg a
  | .monitor a => s.monitorStep cfg a

end

end EdgeFlow
