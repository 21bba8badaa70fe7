import EdgeFlow.Lib.Table
import EdgeFlow.Model.DeviceModel
import EdgeFlow.Platform.Config

/-!
# The storage layer (`src/platform/storage.*`)

Two stores side by side: the JSONL audit file, which is only ever appended to and is
therefore a byte string, and the SQLite database with its three tables. `db != NULL` and
`cfg.use_sqlite` are one `Bool` here, since `storage_open` opens the database exactly when
the setting asks for it.

What SQLite and the file system answer is not decided by this code. The answers to the
inserts and to the JSONL appends are a `StorageEnv`, indexed by how many of them went before;
the answers to the statements that read or flag rows are arguments. A failed statement has no
effect.
-/

set_option autoImplicit false

namespace EdgeFlow

open Lib

variable {V : Type}

/-! ## Rows -/

/-- A row of `telemetry`, in the column types SQLite stores. -/
structure TelemetryRow (V : Type) where
  ts_ms : Int64
  device_id : Bytes
  point_id : Bytes
  value : V
  unit : Bytes
  quality : Bytes
  uploaded : Bool
  deriving DecidableEq

structure AlarmRow where
  alarm_id : Int64
  ts_ms : Int64
  device_id : Bytes
  code : Bytes
  level : Nat
  state : Bytes
  message : Bytes
  deriving DecidableEq

structure CommandRow (V : Type) where
  command_id : Int64
  target : Bytes
  point_id : Bytes
  value : V
  state : Bytes
  message : Bytes

/-- The values `storage_append_telemetry` binds. The `uint64_t` timestamp is cast to
    `sqlite3_int64`; the quality goes in as text. -/
def telemetryColumns (p : Telemetry V) : TelemetryRow V where
  ts_ms := p.ts_ms.toInt64
  device_id := p.device_id.bytes
  point_id := p.point_id.bytes
  value := p.value
  unit := p.unit.bytes
  quality := telemetryQualityToString p.quality
  uploaded := false

/-- `(int)alarm->level`. -/
def alarmLevelToInt : AlarmLevel → Nat
  | .info => 0
  | .minor => 1
  | .major => 2
  | .critical => 3

/-- The values `storage_append_alarm` binds. -/
def alarmColumns (a : AlarmEvent) : AlarmRow where
  alarm_id := a.alarm_id.toInt64
  ts_ms := a.ts_ms.toInt64
  device_id := a.device_id.bytes
  code := a.code.bytes
  level := alarmLevelToInt a.level
  state := match a.state with
    | .active => ascii "ACTIVE"
    | .recovered => ascii "RECOVERED"
  message := a.message.bytes

/-- The values `storage_append_command` binds. -/
def commandColumns (c : Command V) : CommandRow V where
  command_id := c.command_id.toInt64
  target := c.target_device_id.bytes
  point_id := c.point_id.bytes
  value := c.target_value
  state := commandStateToString c.state
  message := c.result_message.bytes

/-! ## The store -/

/-- What the outside answers: to the `k`-th `INSERT`, and to the `k`-th `fopen` of the JSONL
    file. -/
structure StorageEnv where
  insertOk : Nat → Bool
  jsonlOk : Nat → Bool

/-- `storage_ctx_t` with the database and the file behind it. -/
structure Storage (V : Type) where
  use_sqlite : Bool
  telemetry : Table (TelemetryRow V)
  alarms : Table AlarmRow
  commands : Table (CommandRow V)
  /-- `sqlite3_last_insert_rowid` of the one connection both threads share. -/
  last_insert_rowid : Nat
  jsonl : Bytes
  /-- How many `INSERT` statements have been executed. -/
  inserts : Nat
  /-- How many JSONL appends have been tried. -/
  appends : Nat

/-- `storage_open` on a fresh database. -/
def storageOpen (cfg : GatewayConfig V) : Storage V where
  use_sqlite := cfg.use_sqlite
  telemetry := Table.empty
  alarms := Table.empty
  commands := Table.empty
  last_insert_rowid := 0
  jsonl := []
  inserts := 0
  appends := 0

variable (env : StorageEnv)

/-- `append_jsonl_line`: nothing happens if the file cannot be opened. -/
def appendJsonlLine (db : Storage V) (line : Bytes) : Storage V :=
  { db with
    jsonl := if env.jsonlOk db.appends then db.jsonl ++ line ++ ascii "\n" else db.jsonl
    appends := db.appends + 1 }

/-- The line `jsonl_append_telemetry` writes, before its 512-byte buffer cuts it. -/
def jsonlTelemetryText [CDouble V] (p : Telemetry V) : Bytes :=
  ascii "\x7b\"type\":\"telemetry\",\"ts_ms\":" ++ dec p.ts_ms.toNat ++
    ascii ",\"device_id\":\"" ++ p.device_id.bytes ++
    ascii "\",\"point_id\":\"" ++ p.point_id.bytes ++
    ascii "\",\"value\":" ++ CDouble.fmtF4 p.value ++
    ascii ",\"unit\":\"" ++ p.unit.bytes ++
    ascii "\",\"quality\":\"" ++ telemetryQualityToString p.quality ++ ascii "\"\x7d"

def jsonlAppendTelemetry [CDouble V] (db : Storage V) (p : Telemetry V) : Storage V :=
  appendJsonlLine env db (snprintf 512 (jsonlTelemetryText p))

/-- How `storage_append_telemetry` gets past its `INSERT`. -/
inductive InsertResult where
  /-- SQLite is off: `*row_id = 0`, return `0`. -/
  | disabled
  /-- The statement failed: return `-1`, `*row_id` untouched. -/
  | failed
  /-- The row is in; the id is still to be read from the connection. -/
  | done
  deriving DecidableEq

/-- `storage_append_telemetry` up to `sqlite3_finalize`. -/
def storageInsertTelemetry [CDouble V] (db : Storage V) (p : Telemetry V) :
    InsertResult × Storage V :=
  let db := jsonlAppendTelemetry env db p
  if !db.use_sqlite then (.disabled, db)
  else
    let ok := env.insertOk db.inserts && decide (db.telemetry.seq < Table.maxRowid)
    let db := { db with inserts := db.inserts + 1 }
    if ok then
      (.done, { db with
        telemetry := db.telemetry.insert (telemetryColumns p)
        last_insert_rowid := db.telemetry.seq + 1 })
    else (.failed, db)

/-- The rest of it: the return code (`true` for `0`) and the row id. The caller's `row_id`
    starts at `0`, so that is what a failure leaves there. -/
def storageAppendResult (db : Storage V) : InsertResult → Bool × Nat
  | .disabled => (true, 0)
  | .failed => (false, 0)
  | .done => (true, db.last_insert_rowid)

/-- `storage_append_telemetry`. -/
def storageAppendTelemetry [CDouble V] (db : Storage V) (p : Telemetry V) :
    (Bool × Nat) × Storage V :=
  let (r, db) := storageInsertTelemetry env db p
  (storageAppendResult db r, db)

/-- `storage_append_alarm`; its return code is discarded by the worker. -/
def storageAppendAlarm (db : Storage V) (a : AlarmEvent) : Storage V :=
  let db := appendJsonlLine env db (snprintf 640
    (ascii "\x7b\"type\":\"alarm\",\"code\":\"" ++ a.code.bytes ++
      ascii "\",\"device_id\":\"" ++ a.device_id.bytes ++ ascii "\"\x7d"))
  if !db.use_sqlite then db
  else
    let ok := env.insertOk db.inserts && decide (db.alarms.seq < Table.maxRowid)
    let db := { db with inserts := db.inserts + 1 }
    if ok then
      { db with
        alarms := db.alarms.insert (alarmColumns a)
        last_insert_rowid := db.alarms.seq + 1 }
    else db

/-- `storage_append_command`; its return code is discarded by the scheduler. -/
def storageAppendCommand (db : Storage V) (c : Command V) : Storage V :=
  let db := appendJsonlLine env db (snprintf 640
    (ascii "\x7b\"type\":\"command\",\"id\":" ++ dec c.command_id.toNat ++
      ascii ",\"state\":\"" ++ commandStateToString c.state ++ ascii "\"\x7d"))
  if !db.use_sqlite then db
  else
    let ok := env.insertOk db.inserts && decide (db.commands.seq < Table.maxRowid)
    let db := { db with inserts := db.inserts + 1 }
    if ok then
      { db with
        commands := db.commands.insert (commandColumns c)
        last_insert_rowid := db.commands.seq + 1 }
    else db

/-! ## Reading and flagging -/

/-- `storage_telemetry_row_t`. -/
structure StorageTelemetryRow (V : Type) where
  row_id : Nat
  point : Telemetry V

/-- The point `storage_fetch_pending_telemetry` rebuilds from a row. The quality column is
    selected and not read; the point is GOOD. -/
def fetchRow (p : Nat × TelemetryRow V) : StorageTelemetryRow V where
  row_id := p.1
  point := { telemetryInit p.2.ts_ms.toUInt64 p.2.device_id p.2.point_id p.2.value p.2.unit 0 with
    quality := .good }

/-- The rows `WHERE uploaded=0 ORDER BY id ASC`. -/
def pendingRows (t : Table (TelemetryRow V)) : List (Nat × TelemetryRow V) :=
  t.rows.filter fun p => !p.2.uploaded

/-- `storage_fetch_pending_telemetry`. `stepped` is `none` if the statement cannot be prepared
    (return `-1`), and otherwise how many rows `sqlite3_step` delivers before it stops. -/
def storageFetchPendingTelemetry (db : Storage V) (max_rows : Nat) (stepped : Option Nat) :
    Option (List (StorageTelemetryRow V)) :=
  if max_rows = 0 || !db.use_sqlite then some []
  else stepped.map fun k => (((pendingRows db.telemetry).take max_rows).take k).map fetchRow

def TelemetryRow.setUploaded (r : TelemetryRow V) : TelemetryRow V := { r with uploaded := true }

/-- `storage_mark_telemetry_uploaded`: the return code (`true` for `0`) and the store. -/
def storageMarkTelemetryUploaded (db : Storage V) (row_id : Nat) (ok : Bool) :
    Bool × Storage V :=
  if row_id = 0 || !db.use_sqlite then (false, db)
  else if ok then
    (true, { db with telemetry := db.telemetry.update row_id TelemetryRow.setUploaded })
  else (false, db)

/-- `storage_pending_telemetry_count`, when its statement succeeds. -/
def storagePendingTelemetryCount (db : Storage V) : Nat :=
  if db.use_sqlite then (pendingRows db.telemetry).length else 0

/-- One statement on the store, with what SQLite answers to a mark. -/
inductive StorageOp (V : Type) where
  | appendTelemetry (p : Telemetry V)
  | appendAlarm (a : AlarmEvent)
  | appendCommand (c : Command V)
  | markUploaded (row_id : Nat) (ok : Bool)

def storageOp [CDouble V] (db : Storage V) : StorageOp V → Storage V
  | .appendTelemetry p => (storageAppendTelemetry env db p).2
  | .appendAlarm a => storageAppendAlarm env db a
  | .appendCommand c => storageAppendCommand env db c
  | .markUploaded row_id ok => (storageMarkTelemetryUploaded db row_id ok).2

end EdgeFlow
