import EdgeFlow.Ingress.ModbusAdapter
import EdgeFlow.Proof.GatewaySteps

/-!
# Local autonomy

Whatever the broker does and however the monitor's steps fall between the worker's, storage and
control come out the same. Both threads touch the telemetry table, but the monitor only flags
rows, so the statement is about the table without its flags (`Control.view`).

The proof is a simulation of one thread. `finish pc c` runs the worker from where it is to the
publish, as if it were alone; every step of the worker's own keeps it, and every other step of
either thread keeps the view of it. So at any moment of any run the view of `finish` is what
the popped points alone make it (`AutoInv`), and two runs with the same points agree.
-/

set_option autoImplicit false

namespace EdgeFlow

open Lib

variable {V : Type}

/-- The store without the upload flags. -/
def Storage.view (db : Storage V) : Storage V :=
  { db with telemetry := db.telemetry.mapCols TelemetryRow.forget }

def Control.view (c : Control V) : Control V := { c with db := c.db.view }

/-- The worker is between the pop and the publish. -/
def WorkerPc.busy : WorkerPc V → Bool
  | .insert _ => true
  | .rowid _ _ => true
  | .engine _ _ => true
  | .alarm _ _ _ => true
  | .submit _ _ _ => true
  | .tick _ _ _ _ => true
  | _ => false

/-- What the worker's own steps make of the current state when it comes to the publish. -/
def finish [CDouble V] (env : StorageEnv) (cfg : GatewayConfig V) (reg : AdapterRegistry)
    (c : Control V) : WorkerPc V → Control V
  | .insert p => runEngine env cfg reg (workerInsert env c p).2 p
  | .rowid p _ => runEngine env cfg reg c p
  | .engine p _ => runEngine env cfg reg c p
  | .alarm _ _ r => runAlarm env reg c r
  | .submit _ _ r => runSubmit env reg c r
  | .tick _ _ adapter pending => runTick env c (some (adapter, pending))
  | _ => c

/-- Engine and scheduler after each point, for a worker on its own. -/
def trailAfter [CDouble V] (env : StorageEnv) (cfg : GatewayConfig V) (reg : AdapterRegistry) :
    Control V → List (Telemetry V) → List (StateEngine V × CommandScheduler V)
  | _, [] => []
  | c, p :: ps =>
    let c := workerControl env cfg reg c p
    (c.engine, c.scheduler) :: trailAfter env cfg reg c ps

namespace Proof

/-! ## The worker's functions do not see the flags -/

section
variable (env : StorageEnv) (reg : AdapterRegistry)

theorem view_appendAlarm (db : Storage V) (a : AlarmEvent) :
    (storageAppendAlarm env db a).view = storageAppendAlarm env db.view a := by
  simp only [storageAppendAlarm, apply_ite Storage.view]
  rfl

theorem view_appendCommand (db : Storage V) (c : Command V) :
    (storageAppendCommand env db c).view = storageAppendCommand env db.view c := by
  simp only [storageAppendCommand, apply_ite Storage.view]
  rfl

/-- An insert adds to the table without flags what it adds to the table with them. -/
theorem view_insertTelemetry [CDouble V] (db : Storage V) (p : Telemetry V) :
    (storageInsertTelemetry env db p).2.view = (storageInsertTelemetry env db.view p).2 := by
  simp only [storageInsertTelemetry, apply_ite Prod.snd, apply_ite Storage.view]
  simp only [Storage.view, Table.mapCols_insert]
  rfl

/-- A mark is invisible without the flags. -/
theorem view_mark (db : Storage V) (row_id : Nat) (ok : Bool) :
    (storageMarkTelemetryUploaded db row_id ok).2.view = db.view := by
  rcases storageMarkTelemetryUploaded_cases db row_id ok with h | ⟨-, -, -, h⟩
  · rw [h]
  · have hflag : ∀ r : TelemetryRow V, r.setUploaded.forget = r.forget := fun _ => rfl
    rw [h]
    simp only [Storage.view, Table.mapCols_update hflag]

theorem view_workerAlarm (c : Control V) (r : ProcessResult V) :
    (workerAlarm env c r).view = workerAlarm env c.view r := by
  unfold workerAlarm
  cases r.alarm with
  | none => rfl
  | some a =>
    dsimp only
    split
    · unfold Control.view
      rw [view_appendAlarm]
    · rfl

theorem view_workerSubmit (c : Control V) (r : ProcessResult V) :
    workerSubmit reg c.view r = ((workerSubmit reg c r).1, (workerSubmit reg c r).2.view) := by
  unfold workerSubmit
  cases r.command with
  | none => rfl
  | some command =>
    dsimp only
    split
    · have hs : c.view.scheduler = c.scheduler := rfl
      rw [hs]
      cases commandSchedulerSubmit c.scheduler command with
      | none => rfl
      | some scheduler =>
        cases findModbusAdapter reg with
        | none => rfl
        | some adapter => rfl
    · rfl

theorem view_workerTick (adapter : DeviceAdapter) (c : Control V) (cmd : Command V) :
    (workerTick env adapter c cmd).view = workerTick env adapter c.view cmd := by
  unfold workerTick tickOne Control.view
  dsimp only
  rw [view_appendCommand]

theorem view_foldl_workerTick (adapter : DeviceAdapter) (pending : List (Command V)) :
    ∀ c : Control V, (pending.foldl (workerTick env adapter) c).view =
      pending.foldl (workerTick env adapter) c.view := by
  induction pending with
  | nil =>
    intro c
    rfl
  | cons cmd pending ih =>
    intro c
    rw [List.foldl_cons, List.foldl_cons, ih, view_workerTick]

theorem view_runTick (c : Control V) (t : Option (DeviceAdapter × List (Command V))) :
    (runTick env c t).view = runTick env c.view t := by
  cases t with
  | none => rfl
  | some t => exact view_foldl_workerTick env t.1 t.2 c

theorem view_runSubmit (c : Control V) (r : ProcessResult V) :
    (runSubmit env reg c r).view = runSubmit env reg c.view r := by
  unfold runSubmit
  rw [view_workerSubmit]
  exact view_runTick env _ _

theorem view_runAlarm (c : Control V) (r : ProcessResult V) :
    (runAlarm env reg c r).view = runAlarm env reg c.view r := by
  unfold runAlarm
  rw [view_runSubmit, view_workerAlarm]

variable [CDouble V] (cfg : GatewayConfig V)

theorem view_runEngine (c : Control V) (p : Telemetry V) :
    (runEngine env cfg reg c p).view = runEngine env cfg reg c.view p :=
  view_runAlarm env reg _ _

theorem view_workerInsert (c : Control V) (p : Telemetry V) :
    (workerInsert env c p).2.view = (workerInsert env c.view p).2 := by
  unfold workerInsert Control.view
  dsimp only
  rw [view_insertTelemetry]

/-- **The worker's body does not see the flags.** -/
theorem view_workerControl (c : Control V) (p : Telemetry V) :
    (workerControl env cfg reg c p).view = workerControl env cfg reg c.view p := by
  unfold workerControl
  dsimp only
  rw [view_runEngine, view_workerInsert]

/-- Nor does what is left of it from any point on. -/
theorem view_finish (c : Control V) (pc : WorkerPc V) :
    (finish env cfg reg c pc).view = finish env cfg reg c.view pc := by
  cases pc with
  | insert p =>
    unfold finish
    rw [view_runEngine, view_workerInsert]
  | rowid p r => exact view_runEngine env reg cfg c p
  | engine p row_id => exact view_runEngine env reg cfg c p
  | alarm p row_id r => exact view_runAlarm env reg c r
  | submit p row_id r => exact view_runSubmit env reg c r
  | tick p row_id adapter pending => exact view_runTick env c _
  | _ => rfl

/-! ## The worker's own steps -/

theorem finish_of_not_busy (c : Control V) {pc : WorkerPc V} (h : pc.busy = false) :
    finish env cfg reg c pc = c := by
  cases pc <;> first | rfl | cases h

/-- **A step of the worker's own leads where the rest of the body leads.** -/
theorem finish_localStep {c c' : Control V} {pc pc' : WorkerPc V}
    (h : localStep env cfg reg c pc = some (pc', c')) :
    finish env cfg reg c' pc' = finish env cfg reg c pc ∧ pc.busy = true ∧
      pc'.busy = !pc'.atPublish := by
  cases pc with
  | insert p =>
    cases h
    exact ⟨rfl, rfl, rfl⟩
  | rowid p r =>
    cases h
    exact ⟨rfl, rfl, rfl⟩
  | engine p row_id =>
    cases h
    exact ⟨rfl, rfl, rfl⟩
  | alarm p row_id r =>
    cases h
    exact ⟨rfl, rfl, rfl⟩
  | submit p row_id r =>
    rcases hsub : workerSubmit reg c r with ⟨_ | ⟨adapter, pending⟩, c₁⟩
    · simp only [localStep, hsub, Option.some.injEq, Prod.mk.injEq] at h
      obtain ⟨rfl, rfl⟩ := h
      refine ⟨?_, rfl, rfl⟩
      simp only [finish, runSubmit, hsub]
      rfl
    · simp only [localStep, hsub, Option.some.injEq, Prod.mk.injEq] at h
      obtain ⟨rfl, rfl⟩ := h
      refine ⟨?_, rfl, rfl⟩
      simp only [finish, runSubmit, hsub]
  | tick p row_id adapter pending =>
    cases pending with
    | nil =>
      cases h
      exact ⟨rfl, rfl, rfl⟩
    | cons cmd pending =>
      cases h
      exact ⟨rfl, rfl, rfl⟩
  | _ => cases h

/-! ## The invariant -/

theorem trailAfter_snoc (ps : List (Telemetry V)) (p : Telemetry V) :
    ∀ c : Control V, trailAfter env cfg reg c (ps ++ [p]) =
      trailAfter env cfg reg c ps ++
        [((workerControl env cfg reg (ps.foldl (workerControl env cfg reg) c) p).engine,
          (workerControl env cfg reg (ps.foldl (workerControl env cfg reg) c) p).scheduler)] := by
  induction ps with
  | nil =>
    intro c
    rfl
  | cons q ps ih =>
    intro c
    simp only [List.cons_append, trailAfter, ih, List.foldl_cons]

/-- The entry the current point will add to the trail. -/
def nextTrail (s : Gateway V) : List (StateEngine V × CommandScheduler V) :=
  if s.worker.busy then
    [((finish env cfg reg s.ctl s.worker).engine, (finish env cfg reg s.ctl s.worker).scheduler)]
  else []

/-- Storage and control are what the popped points alone make them. -/
structure AutoInv (db : Storage V) (s : Gateway V) : Prop where
  view : (finish env cfg reg s.ctl s.worker).view = (controlAfter env cfg reg db s.popped).view
  trail : s.trail ++ nextTrail env reg cfg s = trailAfter env cfg reg (controlInit db) s.popped

section
variable {env reg cfg} {db : Storage V} {s : Gateway V}

/-- A step that leaves the worker alone and the store as it looks without the flags. -/
theorem AutoInv.other (hi : AutoInv env reg cfg db s) {s' : Gateway V}
    (hw : s'.worker = s.worker) (hc : s'.ctl.view = s.ctl.view) (hp : s'.popped = s.popped)
    (ht : s'.trail = s.trail) : AutoInv env reg cfg db s' := by
  have hv : (finish env cfg reg s'.ctl s'.worker).view =
      (finish env cfg reg s.ctl s.worker).view := by
    rw [view_finish, view_finish, hw, hc]
  refine ⟨?_, ?_⟩
  · rw [hv, hp]
    exact hi.view
  · have hn : nextTrail env reg cfg s' = nextTrail env reg cfg s := by
      unfold nextTrail
      rw [hw]
      rw [hw] at hv
      have he := congrArg Control.engine hv
      have hsch := congrArg Control.scheduler hv
      simp only [Control.view] at he hsch
      rw [he, hsch]
    rw [hn, hp, ht]
    exact hi.trail

/-- A step past the publish: the worker's own part of the iteration is over. -/
theorem AutoInv.past (hi : AutoInv env reg cfg db s) {s' : Gateway V}
    (hb : s.worker.busy = false) (hb' : s'.worker.busy = false) (hc : s'.ctl.view = s.ctl.view)
    (hp : s'.popped = s.popped) (ht : s'.trail = s.trail) : AutoInv env reg cfg db s' := by
  have hv := hi.view
  have htr := hi.trail
  rw [finish_of_not_busy env reg cfg _ hb] at hv
  simp only [nextTrail, hb, Bool.false_eq_true, if_false] at htr
  refine ⟨?_, ?_⟩
  · rw [finish_of_not_busy env reg cfg _ hb', hc, hp]
    exact hv
  · simp only [nextTrail, hb', Bool.false_eq_true, if_false]
    rw [hp, ht]
    exact htr

theorem AutoInv.pop (hi : AutoInv env reg cfg db s) (hw : s.worker = .idle) (p : Telemetry V) :
    AutoInv env reg cfg db
      { s with worker := .insert (applyQualityRules cfg p), popped := s.popped ++ [p] } := by
  have hv := hi.view
  have ht := hi.trail
  simp only [hw, finish] at hv
  simp only [nextTrail, hw, WorkerPc.busy, Bool.false_eq_true, if_false, List.append_nil] at ht
  -- the whole body from here is `workerControl`
  have hbody : (workerControl env cfg reg s.ctl p).view =
      (workerControl env cfg reg (controlAfter env cfg reg db s.popped) p).view := by
    rw [view_workerControl, view_workerControl, hv]
  refine ⟨?_, ?_⟩
  · show (workerControl env cfg reg s.ctl p).view = _
    rw [hbody, controlAfter_snoc]
  · have he := congrArg Control.engine hbody
    have hs := congrArg Control.scheduler hbody
    show s.trail ++ [((workerControl env cfg reg s.ctl p).engine,
      (workerControl env cfg reg s.ctl p).scheduler)] = _
    rw [trailAfter_snoc, ht]
    simp only [Control.view] at he hs
    rw [he, hs]
    rfl

theorem AutoInv.own (hi : AutoInv env reg cfg db s) {pc : WorkerPc V} {c : Control V}
    (h : localStep env cfg reg s.ctl s.worker = some (pc, c)) :
    AutoInv env reg cfg db { s with
      worker := pc
      ctl := c
      trail := if pc.atPublish then s.trail ++ [(c.engine, c.scheduler)] else s.trail } := by
  obtain ⟨hf, hb, hb'⟩ := finish_localStep env reg cfg h
  have ht := hi.trail
  simp only [nextTrail, hb, if_true, ← hf] at ht
  refine ⟨?_, ?_⟩
  · rw [hf]
    exact hi.view
  · cases hat : pc.atPublish with
    | true =>
      rw [hat] at hb'
      simp only [nextTrail, hb', Bool.not_true, Bool.false_eq_true, if_false, if_true,
        List.append_nil]
      rw [finish_of_not_busy env reg cfg c (by simpa using hb')] at ht
      exact ht
    | false =>
      rw [hat] at hb'
      simp only [nextTrail, hb', Bool.not_false, Bool.false_eq_true, if_false, if_true]
      exact ht

/-- **Every step of either thread keeps the invariant.** -/
theorem AutoInv.step (s : Gateway V) (a : GatewayAct V) (s' : Gateway V)
    (hi : AutoInv env reg cfg db s) (h : gatewayStep env cfg reg s a = some s') :
    AutoInv env reg cfg db s' := by
  have hmark : ∀ row_id ok,
      ({ s.ctl with db := (storageMarkTelemetryUploaded s.ctl.db row_id ok).2 } : Control V).view =
        s.ctl.view := by
    intro row_id ok
    unfold Control.view
    rw [view_mark]
  cases a with
  | worker a =>
    rcases worker_cases h with ⟨p, hw, rfl⟩ | ⟨pc, c, hl, rfl⟩ | ⟨p, row_id, hw, rfl⟩ |
      ⟨p, row_id, net, hw, -, rfl⟩ | ⟨p, row_id, net, hw, -, rfl⟩ | ⟨p, row_id, ok, -, hw, rfl⟩
    · exact hi.pop hw p
    · exact hi.own hl
    · exact hi.past (by simp [hw, WorkerPc.busy]) rfl rfl rfl rfl
    · exact hi.past (by simp [hw, WorkerPc.busy]) rfl rfl rfl rfl
    · refine hi.past (by simp [hw, WorkerPc.busy]) ?_ rfl rfl rfl
      show (if 0 < row_id then WorkerPc.mark p row_id else .idle).busy = false
      split <;> rfl
    · exact hi.past (by simp [hw, WorkerPc.busy]) rfl (hmark row_id ok) rfl rfl
  | monitor a =>
    rcases monitor_cases h with ⟨_, rows, -, -, -, rfl⟩ | ⟨r, rows, net, -, -, rfl⟩ |
      ⟨r, rows, ok, -, -, rfl⟩ | ⟨net, l, pc, xs, rfl, -⟩
    · exact hi.other rfl rfl rfl rfl
    · exact hi.other rfl rfl rfl rfl
    · exact hi.other rfl (hmark r.row_id ok) rfl rfl
    · exact hi.other rfl rfl rfl rfl

theorem autoInv_start : AutoInv env reg cfg db (gatewayStart cfg db) := ⟨rfl, rfl⟩

theorem autoInv_run {acts : List (GatewayAct V)} {s : Gateway V}
    (h : run (gatewayStep env cfg reg) (gatewayStart cfg db) acts = some s) :
    AutoInv env reg cfg db s :=
  run_inv AutoInv.step autoInv_start h

end

end

/-- **Local autonomy.** Two runs from one start that have popped the same points, with the same
    answers to inserts and from `write_command`, and with any MQTT outcomes and any interleaving
    with the monitor: the worker's part of both leads to the same storage and control, but for
    the upload flags. Once both are past that part, the telemetry rows without the flags, the
    alarms, the commands, the JSONL file, the `write_command` calls, engine and scheduler agree,
    and so do engine and scheduler after each of the points. -/
theorem local_autonomy [CDouble V] (env : StorageEnv) (cfg : GatewayConfig V)
    (reg : AdapterRegistry) (db : Storage V) (acts₁ acts₂ : List (GatewayAct V))
    (s₁ s₂ : Gateway V)
    (h₁ : run (gatewayStep env cfg reg) (gatewayStart cfg db) acts₁ = some s₁)
    (h₂ : run (gatewayStep env cfg reg) (gatewayStart cfg db) acts₂ = some s₂)
    (hp : s₁.popped = s₂.popped) :
    (finish env cfg reg s₁.ctl s₁.worker).view = (finish env cfg reg s₂.ctl s₂.worker).view ∧
    (s₁.worker.busy = false → s₂.worker.busy = false →
      s₁.ctl.db.telemetry.mapCols TelemetryRow.forget =
        s₂.ctl.db.telemetry.mapCols TelemetryRow.forget ∧
      s₁.ctl.db.alarms = s₂.ctl.db.alarms ∧
      s₁.ctl.db.commands = s₂.ctl.db.commands ∧
      s₁.ctl.db.jsonl = s₂.ctl.db.jsonl ∧
      s₁.ctl.writes = s₂.ctl.writes ∧
      s₁.ctl.engine = s₂.ctl.engine ∧
      s₁.ctl.scheduler = s₂.ctl.scheduler ∧
      s₁.trail = s₂.trail) := by
  have hi₁ := autoInv_run h₁
  have hi₂ := autoInv_run h₂
  have hv : (finish env cfg reg s₁.ctl s₁.worker).view =
      (finish env cfg reg s₂.ctl s₂.worker).view := by
    rw [hi₁.view, hi₂.view, hp]
  refine ⟨hv, fun hb₁ hb₂ => ?_⟩
  rw [finish_of_not_busy env reg cfg _ hb₁, finish_of_not_busy env reg cfg _ hb₂] at hv
  have ht₁ := hi₁.trail
  have ht₂ := hi₂.trail
  simp only [nextTrail, hb₁, hb₂, Bool.false_eq_true, if_false, List.append_nil] at ht₁ ht₂
  exact ⟨congrArg (fun c => c.db.telemetry) hv, congrArg (fun c => c.db.alarms) hv,
    congrArg (fun c => c.db.commands) hv, congrArg (fun c => c.db.jsonl) hv,
    congrArg (fun c => c.writes) hv, congrArg (fun c => c.engine) hv,
    congrArg (fun c => c.scheduler) hv, by rw [ht₁, ht₂, hp]⟩

/-- A peak of 150 kW, and a battery at 10 %. -/
def peakPower : Telemetry ℚ :=
  telemetryInit 1000 (ascii "meter_001") gridPowerKw 150 (ascii "kW") 2

def lowCharge : Telemetry ℚ :=
  telemetryInit 2000 (ascii "bms_001") socPercent 10 (ascii "%") 2

/-- The gateway with its adapter. -/
def adapterStep : Gateway ℚ → GatewayAct ℚ → Option (Gateway ℚ) :=
  gatewayStep calmEnv (gatewayConfigDefaults ℚ) modbusRegistry

/-- The two points while the broker is down: a command, then an alarm. -/
def outageRun : List (GatewayAct ℚ) :=
  .worker (.pop peakPower) :: (List.replicate 7 (.worker .own) ++
    [.worker .lock, .worker (.publish [⟨false, .fail⟩]), .worker (.pop lowCharge)] ++
    List.replicate 5 (.worker .own) ++ [.worker .lock, .worker (.publish [⟨false, .fail⟩])])

/-- The same points, published and marked, and the first one replayed in between. -/
def onlineRun : List (GatewayAct ℚ) :=
  [.worker (.pop peakPower), .worker .own, .monitor (.fetch (some 1))] ++
    List.replicate 6 (.worker .own) ++
    [.monitor .lock, .monitor (.connect connectEvents), .monitor (.publish [writeEvent]),
      .monitor (.mark true), .monitor .unlock, .worker .lock, .worker (.publish [writeEvent]),
      .worker (.mark true), .worker (.pop lowCharge)] ++
    List.replicate 5 (.worker .own) ++
    [.worker .lock, .worker (.publish [writeEvent]), .worker (.mark true)]

/-- With the broker gone and with the broker there, the gateway orders the same discharge and
    raises the same alarm. -/
theorem local_autonomy_outage :
    ∃ s₁ s₂ : Gateway ℚ, run adapterStep defaultStart outageRun = some s₁ ∧
      run adapterStep defaultStart onlineRun = some s₂ ∧
      s₁.net.messages = [] ∧ s₂.net.messages.length = 3 ∧
      s₁.ctl.writes.map (fun cmd => cmd.target_value) = [-30] ∧
      s₁.ctl.db.alarms.rows.map (fun row => row.2.code) = [ascii "BMS_SOC_LOW"] ∧
      s₁.ctl.db.telemetry.mapCols TelemetryRow.forget =
        s₂.ctl.db.telemetry.mapCols TelemetryRow.forget ∧
      s₁.ctl.db.alarms = s₂.ctl.db.alarms ∧
      s₁.ctl.db.commands = s₂.ctl.db.commands ∧
      s₁.ctl.writes = s₂.ctl.writes ∧ s₁.trail = s₂.trail := by
  have hp₁ : (run adapterStep defaultStart outageRun).map (fun s =>
      (s.popped, s.net.messages, s.worker.busy)) =
      some ([peakPower, lowCharge], [], false) := by
    decide +kernel
  have hp₂ : (run adapterStep defaultStart onlineRun).map (fun s =>
      (s.popped, s.net.messages.length, s.worker.busy)) =
      some ([peakPower, lowCharge], 3, false) := by
    decide +kernel
  have heffects : (run adapterStep defaultStart outageRun).map (fun s =>
      (s.ctl.writes.map fun cmd => cmd.target_value,
        s.ctl.db.alarms.rows.map fun row => row.2.code)) =
      some ([-30], [ascii "BMS_SOC_LOW"]) := by
    decide +kernel
  obtain ⟨s₁, h₁, he₁⟩ := Option.map_eq_some_iff.mp hp₁
  obtain ⟨s₂, h₂, he₂⟩ := Option.map_eq_some_iff.mp hp₂
  rw [h₁, Option.map_some, Option.some.injEq] at heffects
  simp only [Prod.mk.injEq] at he₁ he₂ heffects
  obtain ⟨hpop₁, hsent₁, hbusy₁⟩ := he₁
  obtain ⟨hpop₂, hsent₂, hbusy₂⟩ := he₂
  obtain ⟨htelemetry, halarms, hcommands, -, hwrites, -, -, htrail⟩ :=
    (local_autonomy calmEnv (gatewayConfigDefaults ℚ) modbusRegistry
      (storageOpen (gatewayConfigDefaults ℚ)) outageRun onlineRun s₁ s₂ h₁ h₂
      (hpop₁.trans hpop₂.symm)).2 hbusy₁ hbusy₂
  exact ⟨s₁, s₂, h₁, h₂, hsent₁, hsent₂, heffects.1, heffects.2, htelemetry, halarms, hcommands,
    hwrites, htrail⟩

end Proof
end EdgeFlow
