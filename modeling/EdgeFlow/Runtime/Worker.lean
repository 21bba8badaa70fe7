import EdgeFlow.Runtime.CommandScheduler
import EdgeFlow.Runtime.StateEngine

/-!
# The body of `worker_main` (`src/runtime/app.c`) up to the publish

What the worker does with a point before it talks to the broker: the quality rule, the append,
the state engine, the alarm, the command. The body is cut where it touches the store, since
those are the places where the monitor thread's statements can come in between; `workerControl`
is the whole of it run without interruption.
-/

set_option autoImplicit false

namespace EdgeFlow

open Lib

variable {V : Type}

/-- `apply_quality_rules`. -/
def applyQualityRules [CDouble V] (cfg : GatewayConfig V) (point : Telemetry V) : Telemetry V :=
  if point.isPoint maxCellTempC && CDouble.lt cfg.temp_high point.value then
    { point with quality := .bad }
  else point

/-- `find_modbus_adapter`. -/
def findModbusAdapter (reg : AdapterRegistry) : Option DeviceAdapter :=
  match adapterRegistryFind reg .modbusRtu with
  | some adapter => some adapter
  | none => adapterRegistryFind reg .modbusTcp

/-- What the worker owns, with the store it shares, and what it has handed out so far. -/
structure Control (V : Type) where
  engine : StateEngine V
  scheduler : CommandScheduler V
  db : Storage V
  /-- The commands passed to `write_command`. -/
  writes : List (Command V)
  /-- The alarms passed to `storage_append_alarm`. -/
  alarmed : List AlarmEvent
  /-- The commands `command_scheduler_submit` accepted. -/
  submitted : List (Command V)

/-- `gateway_app_init`'s part of it, on the store it opened. -/
def controlInit [CDouble V] (db : Storage V) : Control V where
  engine := stateEngineInit
  scheduler := commandSchedulerInit
  db := db
  writes := []
  alarmed := []
  submitted := []

section
variable (env : StorageEnv) (cfg : GatewayConfig V) (reg : AdapterRegistry)

/-- The `INSERT` of `storage_append_telemetry`. -/
def workerInsert [CDouble V] (c : Control V) (point : Telemetry V) : InsertResult × Control V :=
  let (r, db) := storageInsertTelemetry env c.db point
  (r, { c with db := db })

/-- The call of the state engine. -/
def workerEngine [CDouble V] (c : Control V) (point : Telemetry V) : ProcessResult V × Control V :=
  let r := stateEngineProcessTelemetry c.engine cfg point true true c.scheduler.next_command_id
    point.ts_ms
  (r, { c with engine := r.engine })

/-- The alarm branch. An alarm that was not written is all zero, its id included. -/
def workerAlarm (c : Control V) (r : ProcessResult V) : Control V :=
  match r.alarm with
  | some alarm =>
    if r.ret && decide (alarm.alarm_id ≠ 0) then
      { c with db := storageAppendAlarm env c.db alarm, alarmed := c.alarmed ++ [alarm] }
    else c
  | none => c

/-- The command branch up to the loop of the tick: the adapter and the commands it is given. -/
def workerSubmit (c : Control V) (r : ProcessResult V) :
    Option (DeviceAdapter × List (Command V)) × Control V :=
  match r.command with
  | some command =>
    if r.ret && decide (command.point_id.bytes ≠ []) then
      match commandSchedulerSubmit c.scheduler command with
      | none => (none, c)
      | some scheduler =>
        let c := { c with scheduler := scheduler, submitted := c.submitted ++ [command] }
        match findModbusAdapter reg with
        | none => (none, c)
        | some adapter =>
          let (pending, scheduler) := scheduler.takePending
          (some (adapter, pending), { c with scheduler := scheduler })
    else (none, c)
  | none => (none, c)

/-- One turn of the tick. -/
def workerTick (adapter : DeviceAdapter) (c : Control V) (cmd : Command V) : Control V :=
  let (writes, db) := tickOne env adapter (c.writes, c.db) cmd
  { c with writes := writes, db := db }

/-! Each of the following runs the body from one of its cuts to the publish. -/

def runTick (c : Control V) : Option (DeviceAdapter × List (Command V)) → Control V
  | none => c
  | some (adapter, pending) => pending.foldl (workerTick env adapter) c

/-- **The turns of the tick are the tick**: what the worker does turn by turn with the commands it
    took is `command_scheduler_tick`. -/
theorem runTick_takePending (c : Control V) (adapter : DeviceAdapter) :
    runTick env { c with scheduler := c.scheduler.takePending.2 }
        (some (adapter, c.scheduler.takePending.1)) =
      { c with
        scheduler := (commandSchedulerTick env adapter c.scheduler (c.writes, c.db)).1
        writes := (commandSchedulerTick env adapter c.scheduler (c.writes, c.db)).2.1
        db := (commandSchedulerTick env adapter c.scheduler (c.writes, c.db)).2.2 } := by
  have hfold : ∀ (pending : List (Command V)) (c : Control V),
      pending.foldl (workerTick env adapter) c =
        { c with
          writes := (pending.foldl (tickOne env adapter) (c.writes, c.db)).1
          db := (pending.foldl (tickOne env adapter) (c.writes, c.db)).2 } := by
    intro pending
    induction pending with
    | nil =>
      intro c
      rfl
    | cons cmd pending ih =>
      intro c
      rw [List.foldl_cons, ih]
      rfl
  have hout : (commandSchedulerTick env adapter c.scheduler (c.writes, c.db)).2 =
      c.scheduler.takePending.1.foldl (tickOne env adapter) (c.writes, c.db) :=
    tickLoop_out env adapter _ _
  rw [hout]
  exact hfold _ _

def runSubmit (c : Control V) (r : ProcessResult V) : Control V :=
  let (t, c) := workerSubmit reg c r
  runTick env c t

def runAlarm (c : Control V) (r : ProcessResult V) : Control V :=
  runSubmit env reg (workerAlarm env c r) r

def runEngine [CDouble V] (c : Control V) (point : Telemetry V) : Control V :=
  let (r, c) := workerEngine cfg c point
  runAlarm env reg c r

/-- The body of `worker_main` on a popped point, up to the publish. -/
def workerControl [CDouble V] (c : Control V) (popped : Telemetry V) : Control V :=
  let point := applyQualityRules cfg popped
  let (_, c) := workerInsert env c point
  runEngine env cfg reg c point

/-- The worker after the points `ps`, on the store `db`. -/
def controlAfter [CDouble V] (db : Storage V) (ps : List (Telemetry V)) : Control V :=
  ps.foldl (workerControl env cfg reg) (controlInit db)

theorem controlAfter_snoc [CDouble V] (db : Storage V) (ps : List (Telemetry V))
    (p : Telemetry V) :
    controlAfter env cfg reg db (ps ++ [p]) =
      workerControl env cfg reg (controlAfter env cfg reg db ps) p := by
  simp [controlAfter]

end

end EdgeFlow
