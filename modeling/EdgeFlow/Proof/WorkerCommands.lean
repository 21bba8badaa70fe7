import EdgeFlow.Proof.EngineHistory
import EdgeFlow.Proof.SchedulerRuns
import EdgeFlow.Runtime.App

/-!
# What the worker sends down

The worker asks the engine for a command, submits it and ticks the scheduler at once. Three facts
make that simple: the engine writes at most one command, under the id it was given; that id is
the scheduler's next one, and the scheduler keeps it; and the queue was empty before. So an
iteration adds to the writes exactly the command the engine produced (`Iteration`), and the rest
is induction over the points.

The last section looks at the set point a PCS is left holding. The engine has no way of taking
one back, so what is in force is what the last issuing point asked for, however long ago.
-/

set_option autoImplicit false

namespace EdgeFlow
namespace Proof

open Lib

variable {V : Type}

/-! ## Alarm and submit -/

theorem workerAlarm_frame (env : StorageEnv) (c : Control V) (r : ProcessResult V) :
    (workerAlarm env c r).engine = c.engine ∧ (workerAlarm env c r).scheduler = c.scheduler ∧
      (workerAlarm env c r).writes = c.writes := by
  unfold workerAlarm
  split
  · split_ifs
    · exact ⟨rfl, rfl, rfl⟩
    · exact ⟨rfl, rfl, rfl⟩
  · exact ⟨rfl, rfl, rfl⟩

theorem runSubmit_none (env : StorageEnv) (reg : AdapterRegistry) (c : Control V)
    {r : ProcessResult V} (h : r.command = none) :
    runSubmit env reg c r = c := by
  unfold runSubmit workerSubmit
  rw [h]
  rfl

/-- The scheduler takes its own next id as it is. -/
theorem assignId_next (next : UInt64) : assignId next next = (next, next + 1) := by
  unfold assignId
  split_ifs with h0 hle
  · rfl
  · rfl
  · exact absurd (UInt64.le_refl next) hle

/-- An empty queue takes a command under the next id as it is. -/
theorem submit_of_empty {s : CommandScheduler V} (hqueue : s.queue = []) {cmd : Command V}
    (hid : cmd.command_id = s.next_command_id) :
    ∃ s', commandSchedulerSubmit s cmd = some s' ∧
      s'.queue = [{ cmd with state := .pending }] ∧
      s'.next_command_id = s.next_command_id + 1 := by
  have hroom : s.queue.length < commandQueueMax := by
    rw [hqueue]
    exact Nat.zero_lt_succ _
  have hacc := submitCall_room hroom cmd
  have hcommand := hacc.command
  rw [hid, assignId_next, ← hid] at hcommand
  refine ⟨(commandSchedulerSubmitCall s cmd).2.1, ?_, ?_, ?_⟩
  · exact submit_room hroom cmd
  · rw [hacc.queue, hqueue, hcommand]
    rfl
  · rw [hacc.next, hid, assignId_next]

/-- A command with a point goes through an empty queue and down the adapter. -/
theorem runSubmit_some (env : StorageEnv) (reg : AdapterRegistry) {c : Control V}
    {r : ProcessResult V} {cmd : Command V} {adapter : DeviceAdapter} (hret : r.ret = true)
    (hcmd : r.command = some cmd) (hpoint : cmd.point_id.bytes ≠ [])
    (hfind : findModbusAdapter reg = some adapter)
    (hw : adapter.write_command.isSome = true) (hqueue : c.scheduler.queue = [])
    (hid : cmd.command_id = c.scheduler.next_command_id) :
    (runSubmit env reg c r).engine = c.engine ∧
    (runSubmit env reg c r).scheduler.queue = [] ∧
    (runSubmit env reg c r).writes = c.writes ++ [{ cmd with state := .sent }] ∧
    (runSubmit env reg c r).scheduler.next_command_id = c.scheduler.next_command_id + 1 := by
  obtain ⟨s', hsubmit, hqueue', hnext'⟩ := submit_of_empty hqueue hid
  have hpending : s'.takePending.1 = [{ cmd with state := .pending }] := by
    simp only [CommandScheduler.takePending, hqueue', decide_true, List.filter_cons_of_pos,
      List.filter_nil]
  have hcut : workerSubmit reg c r =
      (some (adapter, [{ cmd with state := .pending }]),
        { c with scheduler := s'.takePending.2, submitted := c.submitted ++ [cmd] }) := by
    unfold workerSubmit
    simp only [hcmd, hret, hpoint, hsubmit, hfind, hpending, ne_eq, not_false_eq_true, decide_true,
      Bool.and_self, if_true]
  unfold runSubmit
  rw [hcut]
  simp only [runTick, List.foldl_cons, List.foldl_nil, workerTick, tickOne, tickTurn_written,
    hw, if_true]
  exact ⟨trivial, rfl, trivial, hnext'⟩

variable [CDouble V]

/-! ## The engine's command -/

/-- A call writes no command, or one under the id and the time it was given. -/
theorem process_command_cases (engine : StateEngine V) (cfg : GatewayConfig V) (t : Telemetry V)
    (cid ts : UInt64) :
    (stateEngineProcessTelemetry engine cfg t true true cid ts).command = none ∨
    ((stateEngineProcessTelemetry engine cfg t true true cid ts).ret = true ∧
      ∃ v, (stateEngineProcessTelemetry engine cfg t true true cid ts).command =
        some (commandInitSetpoint cid ts (ascii "pcs_001") (ascii "target_power_kw") v 3)) := by
  have hstrategy : ∀ e : StateEngine V,
      (processStrategy e cfg t true cid ts).command = none ∨
      ((processStrategy e cfg t true cid ts).ret = true ∧
        ∃ v, (processStrategy e cfg t true cid ts).command =
          some (commandInitSetpoint cid ts (ascii "pcs_001") (ascii "target_power_kw") v 3)) := by
    intro e
    unfold processStrategy
    dsimp only
    split_ifs
    · exact .inl rfl
    · exact .inl rfl
    · exact .inl rfl
    · exact .inl rfl
    · exact .inr ⟨rfl, _, rfl⟩
  by_cases hg : t.quality = .good
  swap
  · rw [process_notGood engine cfg t cid ts true true hg]
    exact .inl rfl
  cases hhot : CDouble.lt cfg.temp_high (updateSnapshot engine t).max_cell_temp_c with
  | true =>
    rw [process_hot engine cfg t cid ts true hg hhot]
    exact .inl rfl
  | false =>
    rw [process_cool engine cfg t cid ts true true hg hhot]
    unfold processSoc
    split_ifs
    · exact .inl rfl
    · exact hstrategy _

/-! ## One iteration -/

/-- What a pass from the engine to the tick does: the engine moves on, and the command it
    produced, if any, goes down under the id it has. -/
structure Iteration (c c' : Control V) (r : ProcessResult V) : Prop where
  engine : c'.engine = r.engine
  queue : c'.scheduler.queue = []
  writes : c'.writes = c.writes ++ (r.command.map fun cmd => { cmd with state := .sent }).toList
  next : c'.scheduler.next_command_id =
    c.scheduler.next_command_id + (if r.command.isSome then 1 else 0)

section
variable (env : StorageEnv) (cfg : GatewayConfig V) (reg : AdapterRegistry)

/-- **One iteration**: nothing waits before it, nothing waits after it. -/
theorem runEngine_iteration {c : Control V} {adapter : DeviceAdapter}
    (hfind : findModbusAdapter reg = some adapter)
    (hw : adapter.write_command.isSome = true) (hqueue : c.scheduler.queue = [])
    (point : Telemetry V) :
    Iteration c (runEngine env cfg reg c point)
      (stateEngineProcessTelemetry c.engine cfg point true true c.scheduler.next_command_id
        point.ts_ms) := by
  generalize hr : stateEngineProcessTelemetry c.engine cfg point true true
    c.scheduler.next_command_id point.ts_ms = r
  have hrun : runEngine env cfg reg c point =
      runSubmit env reg (workerAlarm env { c with engine := r.engine } r) r := by
    unfold runEngine workerEngine runAlarm
    simp only [hr]
  obtain ⟨hengine, hscheduler, hwrites⟩ := workerAlarm_frame env { c with engine := r.engine } r
  rw [hrun]
  generalize workerAlarm env { c with engine := r.engine } r = alarmed at *
  rcases process_command_cases c.engine cfg point c.scheduler.next_command_id point.ts_ms with
    hnone | ⟨hret, v, hsome⟩
  · rw [hr] at hnone
    rw [runSubmit_none env reg _ hnone]
    refine ⟨hengine, ?_, ?_, ?_⟩
    · rw [hscheduler]
      exact hqueue
    · simp [hwrites, hnone]
    · simp [hscheduler, hnone]
  · rw [hr] at hret hsome
    have hpoint : (CStr.copy 64 (ascii "target_power_kw")).bytes ≠ [] := by decide
    have hqueue' : alarmed.scheduler.queue = [] := by rw [hscheduler, hqueue]
    have hid : c.scheduler.next_command_id = alarmed.scheduler.next_command_id := by
      rw [hscheduler]
    obtain ⟨h1, h2, h3, h4⟩ := runSubmit_some env reg hret hsome hpoint hfind hw hqueue' hid
    refine ⟨h1.trans hengine, h2, ?_, ?_⟩
    · rw [h3, hwrites, hsome]
      rfl
    · rw [h4, hscheduler, hsome]
      rfl

/-- The whole body on a popped point: the quality rule and the append touch nothing of this. -/
theorem workerControl_iteration {c : Control V} {adapter : DeviceAdapter}
    (hfind : findModbusAdapter reg = some adapter)
    (hw : adapter.write_command.isSome = true) (hqueue : c.scheduler.queue = [])
    (popped : Telemetry V) :
    Iteration c (workerControl env cfg reg c popped)
      (stateEngineProcessTelemetry c.engine cfg (applyQualityRules cfg popped) true true
        c.scheduler.next_command_id (applyQualityRules cfg popped).ts_ms) := by
  have h := runEngine_iteration env cfg reg hfind hw
    (c := (workerInsert env c (applyQualityRules cfg popped)).2) hqueue
    (applyQualityRules cfg popped)
  exact ⟨h.engine, h.queue, h.writes, h.next⟩

/-! ## The run -/

/-- Nothing waits, and the commands written so far carry the ids from 1 on. -/
structure Numbered (c : Control V) : Prop where
  queue : c.scheduler.queue = []
  next : c.scheduler.next_command_id = UInt64.ofNat (c.writes.length + 1)
  ids : c.writes.map (fun cmd => cmd.command_id) =
    (List.range c.writes.length).map fun k => UInt64.ofNat (k + 1)

omit [CDouble V] in
theorem Iteration.numbered {c c' : Control V} {r : ProcessResult V} (h : Numbered c)
    (hi : Iteration c c' r)
    (hid : ∀ cmd, r.command = some cmd → cmd.command_id = c.scheduler.next_command_id) :
    Numbered c' := by
  cases hcmd : r.command with
  | none =>
    have hwrites : c'.writes = c.writes := by simpa [hcmd] using hi.writes
    have hnext : c'.scheduler.next_command_id = c.scheduler.next_command_id := by
      simpa [hcmd] using hi.next
    refine ⟨hi.queue, ?_, ?_⟩
    · rw [hnext, hwrites, h.next]
    · rw [hwrites, h.ids]
  | some cmd =>
    have hwrites : c'.writes = c.writes ++ [{ cmd with state := .sent }] := by
      simpa [hcmd] using hi.writes
    have hlength : c'.writes.length = c.writes.length + 1 := by
      rw [hwrites, List.length_append]
      rfl
    have hnext : c'.scheduler.next_command_id = c.scheduler.next_command_id + 1 := by
      simpa [hcmd] using hi.next
    refine ⟨hi.queue, ?_, ?_⟩
    · rw [hnext, hlength, h.next, UInt64.ofNat_add (c.writes.length + 1) 1]
      rfl
    · rw [hlength, hwrites, List.map_append, h.ids, List.range_succ, List.map_append]
      congr 1
      show [cmd.command_id] = [UInt64.ofNat (c.writes.length + 1)]
      rw [hid cmd hcmd, h.next]

theorem process_command_id (engine : StateEngine V) (t : Telemetry V) (cid ts : UInt64)
    (cmd : Command V)
    (h : (stateEngineProcessTelemetry engine cfg t true true cid ts).command = some cmd) :
    cmd.command_id = cid := by
  rcases process_command_cases engine cfg t cid ts with hnone | ⟨_, v, hsome⟩
  · rw [hnone] at h
    cases h
  · rw [hsome] at h
    cases h
    rfl

theorem foldl_numbered {adapter : DeviceAdapter} (hfind : findModbusAdapter reg = some adapter)
    (hw : adapter.write_command.isSome = true) :
    ∀ (ps : List (Telemetry V)) {c : Control V}, Numbered c →
      Numbered (ps.foldl (workerControl env cfg reg) c) := by
  intro ps
  induction ps with
  | nil =>
    intro c h
    exact h
  | cons p ps ih =>
    intro c h
    refine ih ?_
    exact (workerControl_iteration env cfg reg hfind hw h.queue p).numbered h
      (process_command_id cfg _ _ _ _)

end

/-! ## From start-up on -/

/-- Start-up registers one plug-in, whose `init` moves it between the two protocols the worker
    looks for. -/
theorem gatewayAppInit_spec {outside : InitEnv V} {cfg : GatewayConfig V} {app : GatewayApp V}
    (h : gatewayAppInit outside cfg = some app) :
    app.cfg = cfg ∧ (∃ db, app.control = controlInit db) ∧
      ∃ adapter, findModbusAdapter app.registry.adapters = some adapter ∧
        adapter.write_command = some modbusWriteCommand := by
  have hregister : ∃ hfits,
      adapterRegistryRegister adapterRegistryInit (modbusAdapterFill outside.poll) =
        (.ok, ⟨[modbusAdapterFill outside.poll], hfits⟩) := ⟨Nat.le_of_ble_eq_true rfl, rfl⟩
  obtain ⟨hfits, hregister⟩ := hregister
  unfold gatewayAppInit at h
  cases hdb : outside.storage with
  | none =>
    rw [hdb] at h
    cases h
  | some db =>
    cases hcalloc : outside.calloc with
    | false =>
      simp only [hdb, hregister, hcalloc, Bool.false_eq_true, if_false, reduceCtorEq] at h
    | true =>
      simp only [hdb, hregister, hcalloc, if_true] at h
      obtain ⟨ring, _, rfl⟩ := Option.map_eq_some_iff.mp h
      refine ⟨rfl, ⟨db, rfl⟩, ?_⟩
      by_cases htcp : cfg.modbus_transport.bytes = ascii "tcp"
      · simp [PluginRegistry.adapters, adapterRegistryInitAll, initSlot, modbusAdapterFill,
          modbusInit, htcp, findModbusAdapter, adapterRegistryFind]
      · simp [PluginRegistry.adapters, adapterRegistryInitAll, initSlot, modbusAdapterFill,
          modbusInit, htcp, findModbusAdapter, adapterRegistryFind]

omit [CDouble V] in
theorem Numbered.command_id {c : Control V} (h : Numbered c) (hlt : c.writes.length < 2 ^ 64)
    (k : Nat) (hk : k < c.writes.length) : (c.writes[k]).command_id.toNat = k + 1 := by
  have hget : (c.writes.map fun cmd => cmd.command_id)[k]? = some (UInt64.ofNat (k + 1)) := by
    rw [h.ids, List.getElem?_map, List.getElem?_range hk]
    rfl
  rw [List.getElem?_map, List.getElem?_eq_getElem hk, Option.map_some, Option.some.injEq] at hget
  rw [hget, UInt64.toNat_ofNat_of_lt' (Nat.lt_of_le_of_lt hk hlt)]

/-- **The worker drops no command and misnumbers none.** Whatever configuration the gateway
    started with and whatever points it has processed: the adapter is found, nothing waits in the
    queue, so no submit is refused; the next point writes exactly the command the engine produces
    from it, if any; and the `k`-th command written carries the id `k`. -/
theorem worker_commands_numbered (outside : InitEnv V) (cfg : GatewayConfig V)
    (app : GatewayApp V) (happ : gatewayAppInit outside cfg = some app) (env : StorageEnv)
    (ps : List (Telemetry V)) :
    let reg := app.registry.adapters
    let c := ps.foldl (workerControl env app.cfg reg) app.control
    (∃ adapter, findModbusAdapter reg = some adapter ∧ adapter.write_command.isSome = true) ∧
    c.scheduler.queue = [] ∧
    (∀ command, commandSchedulerSubmit c.scheduler command ≠ none) ∧
    (∀ popped,
      let point := applyQualityRules app.cfg popped
      let r := stateEngineProcessTelemetry c.engine app.cfg point true true
        c.scheduler.next_command_id point.ts_ms
      (workerControl env app.cfg reg c popped).writes =
        c.writes ++ (r.command.map fun cmd => { cmd with state := .sent }).toList) ∧
    (c.writes.length < 2 ^ 64 →
      ∀ (k : Nat) (hk : k < c.writes.length), (c.writes[k]).command_id.toNat = k + 1) := by
  intro reg c
  obtain ⟨_, ⟨db, hcontrol⟩, adapter, hfind, hwrite⟩ := gatewayAppInit_spec happ
  have hw : adapter.write_command.isSome = true := by rw [hwrite]; rfl
  have hstart : Numbered app.control := by
    rw [hcontrol]
    exact ⟨rfl, rfl, rfl⟩
  have hc : Numbered c := foldl_numbered env app.cfg reg hfind hw ps hstart
  refine ⟨⟨adapter, hfind, hw⟩, hc.queue, ?_, ?_, hc.command_id⟩
  · intro command
    have hroom : c.scheduler.queue.length < commandQueueMax := by
      rw [hc.queue]
      exact Nat.zero_lt_succ _
    rw [submit_room hroom]
    exact Option.some_ne_none _
  · intro popped
    exact (workerControl_iteration env app.cfg reg hfind hw hc.queue popped).writes

/-- A gateway on an empty store, with the default settings. -/
def defaultOutside : InitEnv ℚ where
  storage := some openStore
  calloc := true
  poll := fun _ out => (0, out)

/-- A reading of the grid meter. -/
def gridReading (kw : ℚ) : Telemetry ℚ :=
  telemetryInit 1000 (ascii "meter_001") gridPowerKw kw (ascii "kW") 2

theorem worker_commands_numbered_default :
    ∃ app, gatewayAppInit defaultOutside (gatewayConfigDefaults ℚ) = some app ∧
      ([gridReading 150, gridReading 90, gridReading 120].foldl
        (workerControl answersOk app.cfg app.registry.adapters) app.control).writes.map
          (fun cmd => cmd.command_id) = [1, 2] ∧
      ([gridReading 150, gridReading 90, gridReading 120].foldl
        (workerControl answersOk app.cfg app.registry.adapters) app.control).scheduler.queue =
          [] := by
  refine ⟨_, rfl, by decide +kernel, ?_⟩
  exact (worker_commands_numbered defaultOutside (gatewayConfigDefaults ℚ) _ rfl answersOk
    [gridReading 150, gridReading 90, gridReading 120]).2.1

/-! ## The set point in force -/

/-- The discharge the last `target_power_kw` command asks for; `0` if there was none. -/
def dischargeInForce (writes : List (Command ℚ)) : ℚ :=
  match (writes.filter fun c => decide (c.point_id.bytes = ascii "target_power_kw")).getLast? with
  | some c => -c.target_value
  | none => 0

section Setpoint

variable (env : StorageEnv) (cfg : GatewayConfig ℚ) (reg : AdapterRegistry) (db : Storage ℚ)

/-- The worker step, engine to tick, over the points `ts`. -/
def stepsAfter (ts : List (Telemetry ℚ)) : Control ℚ :=
  ts.foldl (runEngine env cfg reg) (controlInit db)

theorem stepsAfter_snoc (ts : List (Telemetry ℚ)) (t : Telemetry ℚ) :
    stepsAfter env cfg reg db (ts ++ [t]) =
      runEngine env cfg reg (stepsAfter env cfg reg db ts) t := by
  simp [stepsAfter]

/-- A point that makes the engine order a discharge, said of the engine after it. -/
def Issues (e : StateEngine ℚ) (t : Telemetry ℚ) : Prop :=
  t.quality = .good ∧ t.isPoint gridPowerKw = true ∧ e.max_cell_temp_c ≤ cfg.temp_high ∧
    cfg.min_discharge_soc < e.soc_percent ∧ cfg.peak_shaving_threshold_kw < t.value ∧
    0 < cfg.max_discharge_kw

theorem process_latched (e : StateEngine ℚ) (t : Telemetry ℚ) (cid ts : UInt64)
    (hg : t.quality = .good) :
    (stateEngineProcessTelemetry e cfg t true true cid ts).engine.max_cell_temp_c =
        (updateSnapshot e t).max_cell_temp_c ∧
      (stateEngineProcessTelemetry e cfg t true true cid ts).engine.soc_percent =
        (updateSnapshot e t).soc_percent := by
  cases hhot : CDouble.lt cfg.temp_high (updateSnapshot e t).max_cell_temp_c with
  | true =>
    rw [process_hot e cfg t cid ts true hg hhot]
    exact ⟨rfl, rfl⟩
  | false =>
    rw [process_cool e cfg t cid ts true true hg hhot]
    unfold processSoc
    split_ifs
    · exact ⟨rfl, rfl⟩
    · rw [(processStrategy_engine (updateSnapshot e t) cfg t cid ts true).1]
      exact ⟨rfl, rfl⟩

/-- The engine's command on a point, and exactly when. -/
theorem process_command (e : StateEngine ℚ) (t : Telemetry ℚ) (cid ts : UInt64) :
    (Issues cfg (stateEngineProcessTelemetry e cfg t true true cid ts).engine t ∧
      (stateEngineProcessTelemetry e cfg t true true cid ts).command =
        some (commandInitSetpoint cid ts (ascii "pcs_001") (ascii "target_power_kw")
          (-min (t.value - cfg.peak_shaving_threshold_kw) cfg.max_discharge_kw) 3)) ∨
    (¬Issues cfg (stateEngineProcessTelemetry e cfg t true true cid ts).engine t ∧
      (stateEngineProcessTelemetry e cfg t true true cid ts).command = none) := by
  by_cases hg : t.quality = .good
  swap
  · refine .inr ⟨fun h => hg h.1, ?_⟩
    rw [process_notGood e cfg t cid ts true true hg]
    rfl
  obtain ⟨htemp, hsoc⟩ := process_latched cfg e t cid ts hg
  unfold Issues
  rw [htemp, hsoc]
  by_cases hhot : cfg.temp_high < (updateSnapshot e t).max_cell_temp_c
  · refine .inr ⟨fun h => absurd h.2.2.1 (not_le.mpr hhot), ?_⟩
    rw [process_hot e cfg t cid ts true hg (by simpa using hhot)]
    rfl
  rw [process_cool e cfg t cid ts true true hg (by simpa using hhot)]
  cases hp : t.isPoint gridPowerKw with
  | false =>
    refine .inr ⟨fun h => absurd h.2.1 (by simp), ?_⟩
    unfold processSoc
    split_ifs
    · rfl
    · simp [processStrategy, hp, ProcessResult.quiet]
  | true =>
    have hnotSoc : t.isPoint socPercent = false :=
      Telemetry.isPoint_unique hp socPercent_ne_gridPowerKw.symm
    have hgrid : (updateSnapshot e t).grid_power_kw = t.value := by
      rw [updateSnapshot_grid, if_pos hp]
    rw [processSoc_pass _ cfg t cid ts true (.inr hnotSoc), processStrategy_command, hgrid]
    by_cases hcond : t.isPoint gridPowerKw = true ∧
        cfg.min_discharge_soc < (updateSnapshot e t).soc_percent ∧
        cfg.peak_shaving_threshold_kw < t.value ∧ 0 < cfg.max_discharge_kw
    · exact .inl ⟨⟨hg, rfl, not_lt.mp hhot, hcond.2⟩, if_pos hcond⟩
    · exact .inr ⟨fun h => hcond ⟨hp, h.2.2.2⟩, if_neg hcond⟩

theorem dischargeInForce_snoc (writes : List (Command ℚ)) (cid ts : UInt64) (kw : ℚ) :
    dischargeInForce (writes ++ [{ commandInitSetpoint cid ts (ascii "pcs_001")
      (ascii "target_power_kw") (-kw) 3 with state := .sent }]) = kw := by
  have hcopy : (CStr.copy 64 (ascii "target_power_kw")).bytes = ascii "target_power_kw" := by
    decide
  unfold dischargeInForce
  rw [List.filter_append]
  simp [commandInitSetpoint, hcopy]

variable {adapter : DeviceAdapter} (hfind : findModbusAdapter reg = some adapter)
  (hwrite : adapter.write_command.isSome = true)

include hfind hwrite

theorem stepsAfter_queue (ts : List (Telemetry ℚ)) :
    (stepsAfter env cfg reg db ts).scheduler.queue = [] := by
  induction ts using List.reverseRecOn with
  | nil => rfl
  | append_singleton ts t ih =>
    rw [stepsAfter_snoc]
    exact (runEngine_iteration env cfg reg hfind hwrite ih t).queue

/-- One step of the worker, on the set point: the point's own if it issues one, and otherwise the
    one before. -/
theorem discharge_step (ts : List (Telemetry ℚ)) (t : Telemetry ℚ) :
    (Issues cfg (stepsAfter env cfg reg db (ts ++ [t])).engine t ∧
      dischargeInForce (stepsAfter env cfg reg db (ts ++ [t])).writes =
        min (t.value - cfg.peak_shaving_threshold_kw) cfg.max_discharge_kw) ∨
    (¬Issues cfg (stepsAfter env cfg reg db (ts ++ [t])).engine t ∧
      dischargeInForce (stepsAfter env cfg reg db (ts ++ [t])).writes =
        dischargeInForce (stepsAfter env cfg reg db ts).writes) := by
  have hi := runEngine_iteration env cfg reg hfind hwrite
    (stepsAfter_queue env cfg reg db hfind hwrite ts) t
  rw [stepsAfter_snoc, hi.engine, hi.writes]
  rcases process_command cfg (stepsAfter env cfg reg db ts).engine t
    (stepsAfter env cfg reg db ts).scheduler.next_command_id t.ts_ms with ⟨hissues, hcmd⟩ |
      ⟨hnot, hcmd⟩
  · refine .inl ⟨hissues, ?_⟩
    rw [hcmd]
    exact dischargeInForce_snoc _ _ _ _
  · refine .inr ⟨hnot, ?_⟩
    rw [hcmd]
    simp

theorem discharge_nonneg (ts : List (Telemetry ℚ)) :
    0 ≤ dischargeInForce (stepsAfter env cfg reg db ts).writes := by
  induction ts using List.reverseRecOn with
  | nil => exact le_refl _
  | append_singleton ts t ih =>
    rcases discharge_step env cfg reg db hfind hwrite ts t with ⟨hissues, heq⟩ | ⟨_, heq⟩
    · rw [heq]
      exact le_min (sub_nonneg.mpr (le_of_lt hissues.2.2.2.2.1)) (le_of_lt hissues.2.2.2.2.2)
    · rw [heq]
      exact ih

omit hwrite

/-- **The set point in force is the last one issued.** Over any configuration and any points, with
    an adapter whose writes succeed: a GOOD grid reading above the threshold, taken while the
    latched temperature is within the limit and the latched SOC above the minimum, sets the
    discharge to the excess over the threshold, at most the maximum. Every other point, whatever
    it reads, leaves in force what there was; and that is never negative. -/
theorem discharge_in_force (hsucceeds : ∃ f, adapter.write_command = some f ∧ ∀ k, f k = 0)
    (ts : List (Telemetry ℚ)) (t : Telemetry ℚ) :
    let D := fun ts => dischargeInForce (stepsAfter env cfg reg db ts).writes
    let e := (stepsAfter env cfg reg db (ts ++ [t])).engine
    D [] = 0 ∧ 0 ≤ D (ts ++ [t]) ∧
    (Issues cfg e t →
      D (ts ++ [t]) = min (t.value - cfg.peak_shaving_threshold_kw) cfg.max_discharge_kw ∧
        D (ts ++ [t]) ≤ max 0 (t.value - cfg.peak_shaving_threshold_kw)) ∧
    (¬Issues cfg e t → D (ts ++ [t]) = D ts) := by
  intro D e
  have hwrite : adapter.write_command.isSome = true := by
    obtain ⟨f, hf, _⟩ := hsucceeds
    rw [hf]
    rfl
  refine ⟨rfl, discharge_nonneg env cfg reg db hfind hwrite _, ?_, ?_⟩
  · intro hissues
    rcases discharge_step env cfg reg db hfind hwrite ts t with ⟨_, heq⟩ | ⟨hnot, _⟩
    · refine ⟨heq, ?_⟩
      calc D (ts ++ [t])
          = min (t.value - cfg.peak_shaving_threshold_kw) cfg.max_discharge_kw := heq
        _ ≤ t.value - cfg.peak_shaving_threshold_kw := min_le_left _ _
        _ ≤ max 0 (t.value - cfg.peak_shaving_threshold_kw) := le_max_right _ _
    · exact absurd hissues hnot
  · intro hnot
    rcases discharge_step env cfg reg db hfind hwrite ts t with ⟨hissues, _⟩ | ⟨_, heq⟩
    · exact absurd hissues hnot
    · exact heq

end Setpoint

theorem discharge_in_force_peak :
    dischargeInForce (stepsAfter answersOk (gatewayConfigDefaults ℚ) modbusRegistry openStore
      [gridReading 120]).writes = min (120 - 100) 30 := by
  have hissues : Issues (gatewayConfigDefaults ℚ) (stepsAfter answersOk (gatewayConfigDefaults ℚ)
      modbusRegistry openStore [gridReading 120]).engine (gridReading 120) := by
    refine ⟨rfl, ?_, ?_, ?_, ?_, ?_⟩ <;> decide +kernel
  exact ((discharge_in_force answersOk (gatewayConfigDefaults ℚ) modbusRegistry openStore rfl
    ⟨_, rfl, fun _ => rfl⟩ [] (gridReading 120)).2.2.1 hissues).1

/-- A peak of 150 kW, and the grid back at 50 kW: the discharge of 30 kW stays in force. -/
theorem discharge_goes_stale :
    (gridReading 50).quality = .good ∧ (gridReading 50).isPoint gridPowerKw = true ∧
    ¬dischargeInForce (stepsAfter answersOk (gatewayConfigDefaults ℚ) modbusRegistry openStore
        [gridReading 150, gridReading 50]).writes ≤
      max 0 ((gridReading 50).value - (gatewayConfigDefaults ℚ).peak_shaving_threshold_kw) := by
  refine ⟨rfl, ?_, ?_⟩
  · decide +kernel
  · decide +kernel

end Proof
end EdgeFlow
