import EdgeFlow.Egress.MqttSession
import EdgeFlow.Lib.Run

/-!
# Replaying the backlog (`mqtt_session_replay_pending`)

The one function of `src/egress/mqtt_session.c` that works on the session, the store and the
metrics together: it reads a batch of pending rows, publishes them one by one and flags each row
it has published. `replayRows` is its loop; here the loop runs with the store and the counters it
changes.

SQLite's answers come as the session's events do, one for each mark and one for the count at the
end; how many rows the `SELECT` delivers is an argument. `log` records what each call inside the
loop came to and is read by no function.
-/

set_option autoImplicit false

namespace EdgeFlow

open Lib

variable {V : Type}

/-- What one call of a replay came to. -/
inductive ReplayStep (V : Type) where
  | connected (ok : Bool)
  | published (p : Telemetry V) (ok : Bool)
  | marked (row_id : Nat) (ok : Bool)

/-- What `mqtt_session_replay_pending` reads and writes. -/
structure ReplayState (V : Type) where
  net : Net V
  db : Storage V
  /-- Two of `gateway_metrics_t`. -/
  mqtt_replay_total : UInt64
  storage_pending_count : UInt32
  log : List (ReplayStep V)

abbrev Replay (V : Type) (α : Type) : Type := Prog (ReplayState V) Halt α

/-- A call on the session, or on the outside. -/
def onNet {α : Type} (x : Sys V α) : Replay V α :=
  Prog.focus ReplayState.net (fun net s => { s with net := net }) x

/-- A call together with the record of its result. -/
def logged (step : Bool → ReplayStep V) (x : Replay V Bool) : Replay V Bool := do
  let ok ← x
  Prog.modify fun s => { s with log := s.log ++ [step ok] }
  pure ok

/-- The `UPDATE` of `storage_mark_telemetry_uploaded`, and the counter behind it. -/
def replayMark (row_id : Nat) : Replay V Bool := do
  let ok ← onNet sysOk
  let s ← Prog.get
  let r := storageMarkTelemetryUploaded s.db row_id ok
  Prog.modify fun s => { s with
    db := r.2
    mqtt_replay_total := if r.1 then s.mqtt_replay_total + 1 else s.mqtt_replay_total }
  pure r.1

/-- `storage_pending_telemetry_count`: `0` without a database, or if its statement fails. -/
def replayPendingCount : Replay V Nat := do
  let s ← Prog.get
  if s.db.use_sqlite then
    if ← onNet sysOk then pure (storagePendingTelemetryCount s.db) else pure 0
  else pure 0

section
variable [CDouble V]

/-- The critical section, on the rows fetched before it. -/
def replayLocked (rows : List (StorageTelemetryRow V)) : Replay V Nat := do
  if ← logged .connected (onNet mqttEnsureConnectedLocked) then
    replayRows (fun p => logged (.published p) (onNet (replayPublish p)))
      (fun row_id => logged (.marked row_id) (replayMark row_id)) 0 rows
  else pure 0

/-- `mqtt_session_replay_pending`. -/
def mqttSessionReplayPending (stepped : Option Nat) : Replay V Nat := do
  let s ← Prog.get
  match storageFetchPendingTelemetry s.db (replayBatch s.net.cfg) stepped with
  | none => pure 0
  | some rows =>
    let replayed ← replayLocked rows
    let count ← replayPendingCount
    Prog.modify fun s => { s with storage_pending_count := UInt32.ofNat count }
    pure replayed

/-- One call, with the number of rows SQLite can deliver and what the outside does during it;
    no step if it does not return. -/
def replayCall (s : ReplayState V) (c : Nat × List Event) : Option (Nat × ReplayState V) :=
  (mqttSessionReplayPending (some c.1)).result { s with net := { s.net with events := c.2 } }

/-- One round of the monitor's replay, its value thrown away. -/
def replayRound (s : ReplayState V) (c : Nat × List Event) : Option (ReplayState V) :=
  (replayCall s c).map Prod.snd

end

end EdgeFlow
