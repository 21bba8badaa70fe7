import EdgeFlow.Ingress.ModbusAdapter
import EdgeFlow.Runtime.Worker

/-!
# The over-temperature interlock of the worker

Two rules read `temp_high`. The state engine's turns a hot cell into FAULT and an alarm; the
worker's quality rule runs first and turns the same reading into a BAD point, which the engine
ignores. Composed, the engine's rule can never fire: **a hot reading changes nothing but the
store**. So the interlock holds over a history exactly when there is nothing to interlock.
-/

set_option autoImplicit false

namespace EdgeFlow
namespace Proof

open Lib

variable {V : Type} [CDouble V]

/-! ## Excursions -/

/-- A cell temperature above the limit. -/
def isHot (cfg : GatewayConfig V) (p : Telemetry V) : Bool :=
  p.isPoint maxCellTempC && CDouble.lt cfg.temp_high p.value

/-- A cell temperature within the limit. -/
def isCool (cfg : GatewayConfig V) (p : Telemetry V) : Bool :=
  p.isPoint maxCellTempC && CDouble.le p.value cfg.temp_high

/-- `hot` begins an excursion after `pre`: it is hot, and any hot point of `pre` has been
    followed by a cool one. -/
def Begins (cfg : GatewayConfig V) (pre : List (Telemetry V)) (hot : Telemetry V) : Prop :=
  isHot cfg hot = true ∧
    ∀ a p b, pre = a ++ p :: b → isHot cfg p = true → ∃ q ∈ b, isCool cfg q = true

section
variable (env : StorageEnv) (cfg : GatewayConfig V) (reg : AdapterRegistry) (db : Storage V)

/-- The interlock: in every state from the start of an excursion to its end, the engine is in
    FAULT, the excursion has raised a BMS_TEMP_HIGH alarm, and no command was submitted in it. -/
def Interlock (ps : List (Telemetry V)) : Prop :=
  ∀ pre hot mid post, ps = pre ++ hot :: (mid ++ post) → Begins cfg pre hot →
    (∀ q ∈ mid, isCool cfg q = false) →
    (controlAfter env cfg reg db (pre ++ hot :: mid)).engine.state = .fault ∧
    (∃ a, a ∈ (controlAfter env cfg reg db (pre ++ hot :: mid)).alarmed.drop
        (controlAfter env cfg reg db pre).alarmed.length ∧ a.code.bytes = bmsTempHigh) ∧
    (controlAfter env cfg reg db (pre ++ hot :: mid)).submitted =
      (controlAfter env cfg reg db pre).submitted

/-! ## A hot reading -/

theorem applyQualityRules_hot {cfg : GatewayConfig V} {p : Telemetry V}
    (h : isHot cfg p = true) : (applyQualityRules cfg p).quality = .bad := by
  unfold isHot at h
  unfold applyQualityRules
  rw [if_pos h]

/-- **The quality rule switches the interlock off**: a hot reading is stored, and neither the
    engine nor the alarm log nor the scheduler sees it. -/
theorem workerControl_hot {p : Telemetry V} (h : isHot cfg p = true) (c : Control V) :
    ∃ db', workerControl env cfg reg c p = { c with db := db' } := by
  have hbad : (applyQualityRules cfg p).quality ≠ .good := by
    rw [applyQualityRules_hot h]
    decide
  refine ⟨(storageInsertTelemetry env c.db (applyQualityRules cfg p)).2, ?_⟩
  unfold workerControl runEngine
  simp only [workerInsert, workerEngine, process_notGood _ _ _ _ _ _ _ hbad]
  rfl

/-- The first hot point of a history begins an excursion. -/
theorem exists_begins {ps : List (Telemetry V)} {p : Telemetry V} (hp : p ∈ ps)
    (hh : isHot cfg p = true) : ∃ pre hot post, ps = pre ++ hot :: post ∧ Begins cfg pre hot := by
  have hsome : (ps.find? (isHot cfg)).isSome := by
    rw [List.find?_isSome]
    exact ⟨p, hp, hh⟩
  obtain ⟨hot, hfind⟩ := Option.isSome_iff_exists.mp hsome
  obtain ⟨hhot, pre, post, rfl, hpre⟩ := List.find?_eq_some_iff_append.mp hfind
  refine ⟨pre, hot, post, rfl, hhot, ?_⟩
  rintro a q b rfl hq
  have := hpre q (by simp)
  simp [hq] at this

/-- **The interlock holds over a history exactly when no point of it is hot.** -/
theorem interlock_iff (ps : List (Telemetry V)) :
    Interlock env cfg reg db ps ↔ ∀ p ∈ ps, isHot cfg p = false := by
  constructor
  · intro hi p hp
    by_contra hh
    rw [Bool.not_eq_false] at hh
    obtain ⟨pre, hot, post, rfl, hb⟩ := exists_begins cfg hp hh
    -- right after the first hot point the alarm log is the one before it
    obtain ⟨-, ⟨a, ha, -⟩, -⟩ := hi pre hot [] post rfl hb (by simp)
    obtain ⟨db', hdb⟩ := workerControl_hot env cfg reg hb.1 (controlAfter env cfg reg db pre)
    rw [controlAfter_snoc, hdb] at ha
    simp at ha
  · rintro hcold pre hot mid post rfl hb -
    have := hcold hot (by simp)
    rw [hb.1] at this
    cases this

end

/-! ## The failing history -/

/-- A cell at 60 degrees against a limit of 55. -/
def hotCell : Telemetry ℚ := telemetryInit 1000 (ascii "bms_001") maxCellTempC 60 (ascii "C") 1

/-- A grid reading above the peak-shaving threshold. -/
def gridPeak : Telemetry ℚ := telemetryInit 2000 (ascii "meter_001") gridPowerKw 150 (ascii "kW") 1

/-- The worker with the default settings and adapter, on a store that always succeeds. -/
def defaultAfter (ps : List (Telemetry ℚ)) : Control ℚ :=
  controlAfter ⟨fun _ => true, fun _ => true⟩ (gatewayConfigDefaults ℚ) modbusRegistry
    (storageOpen (gatewayConfigDefaults ℚ)) ps

/-- With the default settings the gateway is RUNNING, has raised no alarm and orders a discharge
    while the cells are over the limit; the adapter is given it. -/
theorem interlock_fails :
    hotCell.quality = .good ∧ gridPeak.quality = .good ∧
    ¬Interlock ⟨fun _ => true, fun _ => true⟩ (gatewayConfigDefaults ℚ) modbusRegistry
      (storageOpen (gatewayConfigDefaults ℚ)) [hotCell, gridPeak] ∧
    (defaultAfter [hotCell, gridPeak]).engine.state = .running ∧
    (defaultAfter [hotCell, gridPeak]).alarmed = [] ∧
    (defaultAfter [hotCell, gridPeak]).submitted.length = 1 ∧
    (defaultAfter [hotCell, gridPeak]).writes.map (fun cmd => cmd.target_value) = [-30] := by
  have hstate : (defaultAfter [hotCell, gridPeak]).engine.state = .running := by decide +kernel
  refine ⟨rfl, rfl, fun hi => ?_, hstate, by decide +kernel, by decide +kernel,
    by decide +kernel⟩
  obtain ⟨hf, -⟩ := hi [] hotCell [gridPeak] [] rfl ⟨by decide +kernel, by simp⟩
    (by simp only [List.mem_singleton, forall_eq]; decide +kernel)
  exact absurd (hstate.symm.trans hf) (by decide)

end Proof
end EdgeFlow
