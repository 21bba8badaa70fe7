import EdgeFlow.Proof.SessionCalls
import EdgeFlow.Proof.StoredRows
import EdgeFlow.Runtime.Gateway

/-!
# What a step of worker or monitor can do

One inversion lemma per thread, with everything the invariants of the two-thread results need
from a step: what happened to the store, to the rows the monitor holds, to the record of
uploads, and which message the session sent. Most of the monitor's steps (locks, connects, the
ping, the heartbeat) look the same from there, and are one case.
-/

set_option autoImplicit false

namespace EdgeFlow

open Lib

variable {V : Type}

/-- The rows a replay still has to publish. -/
def MonitorPc.rows : MonitorPc V → List (StorageTelemetryRow V)
  | .fetched rows => rows
  | .connecting rows => rows
  | .replaying rows => rows
  | .marking _ rows => rows
  | _ => []

/-- The row a replay has published and not marked. -/
def MonitorPc.unmarked : MonitorPc V → Option (StorageTelemetryRow V)
  | .marking r _ => some r
  | _ => none

/-- A row id and its point; `0` is no id. -/
def heldRow (p : Telemetry V) (row_id : Nat) : Option (Telemetry V × Nat) :=
  if 0 < row_id then some (p, row_id) else none

/-- The row the worker has appended and neither marked nor given up, with its point. -/
def WorkerPc.held (db : Storage V) : WorkerPc V → Option (Telemetry V × Nat)
  | .idle => none
  | .insert _ => none
  | .rowid p r => heldRow p (storageAppendResult db r).2
  | .engine p row_id => heldRow p row_id
  | .alarm p row_id _ => heldRow p row_id
  | .submit p row_id _ => heldRow p row_id
  | .tick p row_id _ _ => heldRow p row_id
  | .publish p row_id => heldRow p row_id
  | .publishing p row_id => heldRow p row_id
  | .mark p row_id => heldRow p row_id

/-- The row the worker has published and not marked. -/
def WorkerPc.unmarked : WorkerPc V → Option (Telemetry V × Nat)
  | .mark p row_id => some (p, row_id)
  | _ => none

namespace Proof

theorem heldRow_eq_some {p q : Telemetry V} {row_id id : Nat} :
    heldRow p row_id = some (q, id) ↔ 0 < row_id ∧ p = q ∧ row_id = id := by
  unfold heldRow
  split_ifs with h
  · simp [h]
  · simp [h]

/-- What the worker holds depends on the store only through the connection's last row id. -/
theorem held_congr {db db' : Storage V} (h : db'.last_insert_rowid = db.last_insert_rowid)
    (pc : WorkerPc V) : pc.held db' = pc.held db := by
  cases pc with
  | rowid p r => cases r <;> simp [WorkerPc.held, storageAppendResult, h]
  | _ => rfl

/-- A session call keeps `Rest` and sends `xs`. -/
def Serves (net net' : Net V) (xs : List Sent) : Prop := Rest net → Rest net' ∧ After net net' xs

theorem Serves.refl (net : Net V) : Serves net net [] := fun h => ⟨h, After.refl net⟩

/-- From the triple of a session call to the step of the gateway it is. -/
theorem serves_of_call {α : Type} {s : Gateway V} {x : Sys V α} {events : List Event} {r : α}
    {net : Net V} {xs : List Sent} (h : s.call x events = some (r, net))
    (hx : ∀ s₀ : Net V, s₀.cfg = s.net.cfg → Rest s₀ →
      Triple (fun s => s = s₀) x (fun a s => a = r → Rest s ∧ After s₀ s xs) (fun _ _ => True)) :
    Serves s.net net xs := by
  intro hr
  have hsame : Same s.net { s.net with events := events } := ⟨rfl, rfl, rfl, rfl, fun _ => rfl⟩
  obtain ⟨hr', ha⟩ :=
    (hx { s.net with events := events } rfl (Rest.same hr hsame)).of_result rfl h rfl
  exact ⟨hr', hsame.after.trans ha⟩

/-- The calls that send one message or none, and say which. -/
theorem serves_of_sent {s : Gateway V} {x : Sys V Bool} {events : List Event} {r : Bool}
    {net : Net V} (y : GatewayConfig V → Sent) {E : Net V → Halt → Net V → Prop}
    (h : s.call x events = some (r, net))
    (hx : ∀ s₀ : Net V, Rest s₀ →
      Triple (fun s => s = s₀) x (fun ok s => Rest s ∧ After s₀ s (sentIf ok (y s₀.cfg))) (E s₀)) :
    Serves s.net net (sentIf r (y s.net.cfg)) := by
  refine serves_of_call h fun s₀ hcfg hr => ?_
  refine (hx s₀ hr).conseq (fun _ h => h) ?_ fun _ _ _ => trivial
  intro ok s₁ hs₁ hok
  rw [hok, hcfg] at hs₁
  exact hs₁

/-- A message that uploads nothing: a ping, or a heartbeat. -/
def Aside (cfg : GatewayConfig V) (x : Sent) : Prop :=
  x = .ping ∨ ∃ payload, x = .publish cfg.mqtt_heartbeat_topic.bytes payload

theorem aside_nil (cfg : GatewayConfig V) : ∀ x ∈ [], Aside cfg x := by
  intro x hx
  cases hx

theorem aside_sentIf {cfg : GatewayConfig V} {y : Sent} (h : Aside cfg y) {ok : Bool} :
    ∀ x ∈ sentIf ok y, Aside cfg x := by
  intro x hx
  cases ok with
  | false => cases hx
  | true => exact List.mem_singleton.mp hx ▸ h

section
variable {s : Gateway V}

theorem serves_connect {events : List Event} {r : Bool} {net : Net V}
    (h : s.call mqttEnsureConnectedLocked events = some (r, net)) : Serves s.net net [] := by
  refine serves_of_call h fun s₀ _ hr => ?_
  refine (mqttEnsureConnectedLocked_spec hr).conseq (fun _ h => h) ?_ fun _ _ _ => trivial
  intro a s₁ hs₁ _
  exact ⟨hs₁.1, hs₁.2.1⟩

theorem serves_ping {events : List Event} {r : Bool} {net : Net V}
    (h : s.call mqttSessionPing events = some (r, net)) : Serves s.net net (sentIf r .ping) :=
  serves_of_sent (fun _ => .ping) h fun _ hr => mqttSessionPing_spec hr

theorem serves_heartbeat {payload : Bytes} {events : List Event} {r : Bool} {net : Net V}
    (h : s.call (mqttSessionPublishHeartbeat payload) events = some (r, net)) :
    Serves s.net net (sentIf r (.publish s.net.cfg.mqtt_heartbeat_topic.bytes payload)) :=
  serves_of_sent (fun cfg => .publish cfg.mqtt_heartbeat_topic.bytes payload) h
    fun _ hr => mqttSessionPublishHeartbeat_spec hr payload

end

/-! ## The store under the worker's functions -/

theorem workerAlarm_db (env : StorageEnv) (c : Control V) (r : ProcessResult V) :
    (workerAlarm env c r).db.telemetry = c.db.telemetry ∧
      (workerAlarm env c r).db.use_sqlite = c.db.use_sqlite := by
  unfold workerAlarm
  cases r.alarm with
  | none => exact ⟨rfl, rfl⟩
  | some a =>
    dsimp only
    split
    · exact ⟨storageAppendAlarm_telemetry env c.db a, storageAppendAlarm_use_sqlite env c.db a⟩
    · exact ⟨rfl, rfl⟩

theorem workerSubmit_db (reg : AdapterRegistry) (c : Control V) (r : ProcessResult V) :
    (workerSubmit reg c r).2.db = c.db := by
  unfold workerSubmit
  cases r.command with
  | none => rfl
  | some command =>
    dsimp only
    split
    · cases commandSchedulerSubmit c.scheduler command with
      | none => rfl
      | some scheduler =>
        cases findModbusAdapter reg with
        | none => rfl
        | some adapter => rfl
    · rfl

variable [CDouble V]

/-- The message a point is uploaded in. -/
def uploadMessage (cfg : GatewayConfig V) (p : Telemetry V) : Sent :=
  .publish cfg.mqtt_topic.bytes (telemetryToJson p 384)

section
variable {env : StorageEnv} {cfg : GatewayConfig V} {reg : AdapterRegistry} {s s' : Gateway V}

theorem serves_publish {p : Telemetry V} {events : List Event} {r : Bool} {net : Net V}
    (h : s.call (mqttSessionPublishTelemetry p) events = some (r, net)) :
    Serves s.net net (sentIf r (uploadMessage s.net.cfg p)) :=
  serves_of_sent (fun cfg => uploadMessage cfg p) h
    fun _ hr => mqttSessionPublishTelemetry_spec hr p

theorem serves_replay {p : Telemetry V} {events : List Event} {r : Bool} {net : Net V}
    (h : s.call (replayPublish p) events = some (r, net)) :
    Serves s.net net (sentIf r (uploadMessage s.net.cfg p)) :=
  serves_of_sent (fun cfg => uploadMessage cfg p) h fun _ hr => replayPublish_spec hr p

/-! ## The worker -/

/-- **The worker's own steps carry the row along**: the insert takes up the row it appends, and
    from there to the publish neither the row in hand nor the table changes. -/
theorem localStep_cases {c c' : Control V} {pc pc' : WorkerPc V}
    (h : localStep env cfg reg c pc = some (pc', c')) :
    c'.db.use_sqlite = c.db.use_sqlite ∧ pc.unmarked = none ∧ pc'.unmarked = none ∧
      ((pc'.held c'.db = pc.held c.db ∧ c'.db.telemetry = c.db.telemetry) ∨
        ∃ p, c.db.use_sqlite = true ∧ pc.held c.db = none ∧
          pc'.held c'.db = some (p, c.db.telemetry.seq + 1) ∧
          c'.db.telemetry = c.db.telemetry.insert (telemetryColumns p)) := by
  cases pc with
  | insert p =>
    cases h
    refine ⟨storageInsertTelemetry_use_sqlite env c.db p, rfl, rfl, ?_⟩
    rcases storageInsertTelemetry_cases env c.db p with ⟨hr, hsql, ht, hl⟩ | ⟨hr, ht⟩
    · refine Or.inr ⟨p, hsql, rfl, ?_, ht⟩
      show heldRow p (storageAppendResult (storageInsertTelemetry env c.db p).2
        (storageInsertTelemetry env c.db p).1).2 = _
      rw [hr, storageAppendResult, hl]
      exact heldRow_eq_some.mpr ⟨Nat.succ_pos _, rfl, rfl⟩
    · refine Or.inl ⟨?_, ht⟩
      show heldRow p (storageAppendResult (storageInsertTelemetry env c.db p).2
        (storageInsertTelemetry env c.db p).1).2 = none
      rw [hr]
      split <;> rfl
  | rowid p r =>
    cases h
    exact ⟨rfl, rfl, rfl, Or.inl ⟨rfl, rfl⟩⟩
  | engine p row_id =>
    cases h
    exact ⟨rfl, rfl, rfl, Or.inl ⟨rfl, rfl⟩⟩
  | alarm p row_id r =>
    cases h
    obtain ⟨ht, hsql⟩ := workerAlarm_db env c r
    exact ⟨hsql, rfl, rfl, Or.inl ⟨rfl, ht⟩⟩
  | submit p row_id r =>
    have hdb := workerSubmit_db reg c r
    rcases hsub : workerSubmit reg c r with ⟨_ | ⟨adapter, pending⟩, c₁⟩
    · simp only [localStep, hsub, Option.some.injEq, Prod.mk.injEq] at h
      obtain ⟨rfl, rfl⟩ := h
      rw [hsub] at hdb
      exact ⟨by rw [hdb], rfl, rfl, Or.inl ⟨rfl, by rw [hdb]⟩⟩
    · simp only [localStep, hsub, Option.some.injEq, Prod.mk.injEq] at h
      obtain ⟨rfl, rfl⟩ := h
      rw [hsub] at hdb
      exact ⟨by rw [hdb], rfl, rfl, Or.inl ⟨rfl, by rw [hdb]⟩⟩
  | tick p row_id adapter pending =>
    cases pending with
    | nil =>
      cases h
      exact ⟨rfl, rfl, rfl, Or.inl ⟨rfl, rfl⟩⟩
    | cons cmd pending =>
      cases h
      exact ⟨storageAppendCommand_use_sqlite env c.db _, rfl, rfl,
        Or.inl ⟨rfl, storageAppendCommand_telemetry env c.db _⟩⟩
  | _ => cases h

theorem worker_cases {a : WorkerMove V} (h : s.workerStep env cfg reg a = some s') :
    (∃ p, s.worker = .idle ∧
      s' = { s with worker := .insert (applyQualityRules cfg p), popped := s.popped ++ [p] }) ∨
    (∃ pc c, localStep env cfg reg s.ctl s.worker = some (pc, c) ∧
      s' = { s with
        worker := pc
        ctl := c
        trail := if pc.atPublish then s.trail ++ [(c.engine, c.scheduler)] else s.trail }) ∨
    (∃ p row_id, s.worker = .publish p row_id ∧
      s' = { s with worker := .publishing p row_id, lock := some .worker }) ∨
    (∃ p row_id net, s.worker = .publishing p row_id ∧ Serves s.net net [] ∧
      s' = { s with net := net, lock := none, worker := .idle }) ∨
    (∃ p row_id net, s.worker = .publishing p row_id ∧
      Serves s.net net [uploadMessage s.net.cfg p] ∧
      s' = { s with
        net := net
        lock := none
        worker := if 0 < row_id then .mark p row_id else .idle
        uploads := s.uploads ++ [⟨.worker, row_id, p⟩] }) ∨
    (∃ p row_id ok, a = .mark ok ∧ s.worker = .mark p row_id ∧
      s' = { s with
        worker := .idle
        ctl := { s.ctl with db := (storageMarkTelemetryUploaded s.ctl.db row_id ok).2 } }) := by
  cases a with
  | pop p =>
    cases hpc : s.worker with
    | idle =>
      simp only [Gateway.workerStep, hpc, Option.some.injEq] at h
      exact Or.inl ⟨p, rfl, h.symm⟩
    | _ => simp [Gateway.workerStep, hpc] at h
  | own =>
    simp only [Gateway.workerStep] at h
    obtain ⟨⟨pc, c⟩, hl, rfl⟩ := Option.map_eq_some_iff.mp h
    exact Or.inr (Or.inl ⟨pc, c, hl, rfl⟩)
  | lock =>
    cases hpc : s.worker with
    | publish p row_id =>
      cases hlock : s.lock with
      | none =>
        simp only [Gateway.workerStep, hpc, hlock, Option.some.injEq] at h
        exact Or.inr (Or.inr (Or.inl ⟨p, row_id, rfl, h.symm⟩))
      | some t => simp [Gateway.workerStep, hpc, hlock] at h
    | _ => simp [Gateway.workerStep, hpc] at h
  | publish events =>
    cases hpc : s.worker with
    | publishing p row_id =>
      simp only [Gateway.workerStep, hpc] at h
      obtain ⟨⟨r, net⟩, hcall, rfl⟩ := Option.map_eq_some_iff.mp h
      have hs := serves_publish hcall
      cases r with
      | false => exact Or.inr (Or.inr (Or.inr (Or.inl ⟨p, row_id, net, rfl, hs, by simp⟩)))
      | true =>
        exact Or.inr (Or.inr (Or.inr (Or.inr (Or.inl ⟨p, row_id, net, rfl, hs, by simp⟩))))
    | _ => simp [Gateway.workerStep, hpc] at h
  | mark ok =>
    cases hpc : s.worker with
    | mark p row_id =>
      simp only [Gateway.workerStep, hpc, Option.some.injEq] at h
      exact Or.inr (Or.inr (Or.inr (Or.inr (Or.inr ⟨p, row_id, ok, rfl, rfl, h.symm⟩))))
    | _ => simp [Gateway.workerStep, hpc] at h

/-! ## The monitor -/

omit [CDouble V] in
/-- A move from `before` that only turns the lock and the program counter is an aside. -/
theorem monitor_turn {before pc : MonitorPc V} {l : Option Thread}
    (h : { s with lock := l, monitor := pc } = s') (hbefore : before.unmarked = none)
    (hpc : pc.unmarked = none) (hrows : pc.rows = before.rows ∨ pc.rows = []) :
    ∃ net l pc xs, s' = { s with net := net, lock := l, monitor := pc } ∧
      before.unmarked = none ∧ pc.unmarked = none ∧
      (pc.rows = before.rows ∨ pc.rows = []) ∧ Serves s.net net xs ∧
      ∀ x ∈ xs, Aside s.net.cfg x :=
  ⟨s.net, l, pc, [], h.symm, hbefore, hpc, hrows, Serves.refl _, aside_nil _⟩

theorem monitor_cases {a : MonitorMove} (h : s.monitorStep cfg a = some s') :
    (∃ stepped rows, a = .fetch stepped ∧ s.monitor = .idle ∧
      storageFetchPendingTelemetry s.ctl.db (replayBatch cfg) stepped = some rows ∧
      s' = { s with monitor := .fetched rows }) ∨
    (∃ r rows net, s.monitor = .replaying (r :: rows) ∧
      Serves s.net net [uploadMessage s.net.cfg r.point] ∧
      s' = { s with
        net := net
        monitor := .marking r rows
        uploads := s.uploads ++ [⟨.monitor, r.row_id, r.point⟩] }) ∨
    (∃ r rows ok, a = .mark ok ∧ s.monitor = .marking r rows ∧
      s' = { s with
        monitor := .replaying rows
        ctl := { s.ctl with db := (storageMarkTelemetryUploaded s.ctl.db r.row_id ok).2 } }) ∨
    (∃ net l pc xs, s' = { s with net := net, lock := l, monitor := pc } ∧
      s.monitor.unmarked = none ∧ pc.unmarked = none ∧
      (pc.rows = s.monitor.rows ∨ pc.rows = []) ∧ Serves s.net net xs ∧
      ∀ x ∈ xs, Aside s.net.cfg x) := by
  cases a with
  | fetch stepped =>
    cases hpc : s.monitor with
    | idle =>
      simp only [Gateway.monitorStep, hpc] at h
      cases hf : storageFetchPendingTelemetry s.ctl.db (replayBatch cfg) stepped with
      | none =>
        simp only [hf, Option.some.injEq] at h
        exact Or.inr (Or.inr (Or.inr (monitor_turn h rfl rfl (Or.inr rfl))))
      | some rows =>
        simp only [hf, Option.some.injEq] at h
        exact Or.inl ⟨stepped, rows, rfl, rfl, hf, h.symm⟩
    | _ => simp [Gateway.monitorStep, hpc] at h
  | lock =>
    cases hlock : s.lock with
    | some t => cases hpc : s.monitor <;> simp [Gateway.monitorStep, hpc, hlock] at h
    | none =>
      cases hpc : s.monitor with
      | fetched rows =>
        simp only [Gateway.monitorStep, hpc, hlock, Option.some.injEq] at h
        exact Or.inr (Or.inr (Or.inr (monitor_turn h rfl rfl (Or.inl rfl))))
      | ping =>
        simp only [Gateway.monitorStep, hpc, hlock, Option.some.injEq] at h
        exact Or.inr (Or.inr (Or.inr (monitor_turn h rfl rfl (Or.inl rfl))))
      | heartbeat =>
        simp only [Gateway.monitorStep, hpc, hlock, Option.some.injEq] at h
        exact Or.inr (Or.inr (Or.inr (monitor_turn h rfl rfl (Or.inl rfl))))
      | _ => simp [Gateway.monitorStep, hpc] at h
  | connect events =>
    cases hpc : s.monitor with
    | connecting rows =>
      simp only [Gateway.monitorStep, hpc] at h
      obtain ⟨⟨r, net⟩, hcall, rfl⟩ := Option.map_eq_some_iff.mp h
      have hs := serves_connect hcall
      cases r with
      | true =>
        exact Or.inr (Or.inr (Or.inr ⟨net, s.lock, .replaying rows, [], rfl, rfl, rfl, Or.inl rfl,
          hs, aside_nil _⟩))
      | false =>
        exact Or.inr (Or.inr (Or.inr ⟨net, s.lock, .unlocking, [], rfl, rfl, rfl, Or.inr rfl, hs,
          aside_nil _⟩))
    | _ => simp [Gateway.monitorStep, hpc] at h
  | publish events =>
    cases hpc : s.monitor with
    | replaying rows =>
      cases rows with
      | nil => simp [Gateway.monitorStep, hpc] at h
      | cons r rows =>
        simp only [Gateway.monitorStep, hpc] at h
        obtain ⟨⟨ok, net⟩, hcall, rfl⟩ := Option.map_eq_some_iff.mp h
        have hs := serves_replay hcall
        cases ok with
        | true => exact Or.inr (Or.inl ⟨r, rows, net, rfl, hs, rfl⟩)
        | false =>
          exact Or.inr (Or.inr (Or.inr ⟨net, s.lock, .unlocking, [], rfl, rfl, rfl, Or.inr rfl,
            hs, aside_nil _⟩))
    | _ => simp [Gateway.monitorStep, hpc] at h
  | mark ok =>
    cases hpc : s.monitor with
    | marking r rows =>
      simp only [Gateway.monitorStep, hpc, Option.some.injEq] at h
      exact Or.inr (Or.inr (Or.inl ⟨r, rows, ok, rfl, rfl, h.symm⟩))
    | _ => simp [Gateway.monitorStep, hpc] at h
  | unlock =>
    cases hpc : s.monitor with
    | replaying rows =>
      cases rows with
      | nil =>
        simp only [Gateway.monitorStep, hpc, Option.some.injEq] at h
        exact Or.inr (Or.inr (Or.inr (monitor_turn h rfl rfl (Or.inl rfl))))
      | cons r rows => simp [Gateway.monitorStep, hpc] at h
    | unlocking =>
      simp only [Gateway.monitorStep, hpc, Option.some.injEq] at h
      exact Or.inr (Or.inr (Or.inr (monitor_turn h rfl rfl (Or.inl rfl))))
    | _ => simp [Gateway.monitorStep, hpc] at h
  | ping events =>
    cases hpc : s.monitor with
    | pinging =>
      simp only [Gateway.monitorStep, hpc] at h
      obtain ⟨⟨r, net⟩, hcall, rfl⟩ := Option.map_eq_some_iff.mp h
      exact Or.inr (Or.inr (Or.inr ⟨net, _, _, _, rfl, rfl, rfl, Or.inl rfl, serves_ping hcall,
        aside_sentIf (Or.inl rfl)⟩))
    | _ => simp [Gateway.monitorStep, hpc] at h
  | heartbeat payload events =>
    cases hpc : s.monitor with
    | beating =>
      simp only [Gateway.monitorStep, hpc] at h
      obtain ⟨⟨r, net⟩, hcall, rfl⟩ := Option.map_eq_some_iff.mp h
      exact Or.inr (Or.inr (Or.inr ⟨net, _, _, _, rfl, rfl, rfl, Or.inl rfl,
        serves_heartbeat hcall, aside_sentIf (Or.inr ⟨payload, rfl⟩)⟩))
    | _ => simp [Gateway.monitorStep, hpc] at h

end

/-! ## A gateway to run -/

/-- The gateway with the default settings, on a store that always succeeds. -/
def defaultStep : Gateway ℚ → GatewayAct ℚ → Option (Gateway ℚ) :=
  gatewayStep calmEnv (gatewayConfigDefaults ℚ) []

def defaultStart : Gateway ℚ :=
  gatewayStart (gatewayConfigDefaults ℚ) (storageOpen (gatewayConfigDefaults ℚ))

def meterReading : Telemetry ℚ :=
  telemetryInit 1000 (ascii "meter_001") gridPowerKw 100 (ascii "kW") 1

/-- The broker takes a connection and answers with a CONNACK. -/
def connectEvents : List Event :=
  [⟨false, .ok 0 []⟩, ⟨false, .ok 0 []⟩, ⟨false, .ok 0 []⟩, ⟨false, .ok 29 []⟩,
    ⟨false, .ok 0 [0x20, 0x02, 0x00, 0x00]⟩]

/-- One `write` takes a whole packet. -/
def writeEvent : Event := ⟨false, .ok 1000 []⟩

end Proof
end EdgeFlow
