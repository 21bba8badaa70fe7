import Mathlib.Data.List.Induction
import Mathlib.Tactic.Linarith
import EdgeFlow.Runtime.StateEngine

/-!
# The state engine, read off its telemetry history

`stateEngineProcessTelemetry` decides from a snapshot and a state latched by earlier calls.
This file eliminates both: after any sequence of calls from `stateEngineInit`, what the next
call does is a function of the telemetry seen so far.

The invariant that carries the induction is `EngineInv`. Its content is the trichotomy of
`state`: FAULT exactly while the latched temperature is high, INIT exactly while every GOOD
point has been a low SOC reading, RUNNING otherwise. The case that needs an argument is the
low-SOC early return, which does *not* write `state`: it can neither leave a FAULT standing
over a cool temperature, because a SOC reading does not move the temperature, nor take INIT
away, because it is itself a low SOC reading.
-/

set_option autoImplicit false

namespace EdgeFlow
namespace Proof

open Lib

/-- One call of the engine, both out-pointers non-NULL. -/
structure EngineCall where
  telemetry : Telemetry ℚ
  command_id : UInt64
  ts_ms : UInt64

def EngineCall.apply (cfg : GatewayConfig ℚ) (engine : StateEngine ℚ) (c : EngineCall) :
    ProcessResult ℚ :=
  stateEngineProcessTelemetry engine cfg c.telemetry true true c.command_id c.ts_ms

/-- The engine after a sequence of calls from `state_engine_init`. -/
def engineRun (cfg : GatewayConfig ℚ) (calls : List EngineCall) : StateEngine ℚ :=
  calls.foldl (fun e c => (c.apply cfg e).engine) stateEngineInit

/-! ## The history's vocabulary -/

/-- The last GOOD value of a point, or `start` if there was none. -/
def lastGood (name : Bytes) (start : ℚ) (hist : List (Telemetry ℚ)) : ℚ :=
  hist.foldl (fun v t => if t.quality = .good ∧ t.isPoint name = true then t.value else v) start

def histSoc (hist : List (Telemetry ℚ)) : ℚ := lastGood socPercent 80 hist
def histTemp (hist : List (Telemetry ℚ)) : ℚ := lastGood maxCellTempC 0 hist
def histGrid (hist : List (Telemetry ℚ)) : ℚ := lastGood gridPowerKw 0 hist

/-- Every GOOD point so far was a SOC reading at or below the discharge minimum, taken while
    the latched temperature was within the limit. -/
def OnlyLowSoc (cfg : GatewayConfig ℚ) (hist : List (Telemetry ℚ)) : Prop :=
  ∀ pre t post, hist = pre ++ t :: post → t.quality = .good →
    t.isPoint socPercent = true ∧ t.value ≤ cfg.min_discharge_soc ∧
      histTemp (pre ++ [t]) ≤ cfg.temp_high

theorem lastGood_snoc (name : Bytes) (start : ℚ) (hist : List (Telemetry ℚ)) (t : Telemetry ℚ) :
    lastGood name start (hist ++ [t]) =
      if t.quality = .good ∧ t.isPoint name = true then t.value
      else lastGood name start hist := by
  simp [lastGood, List.foldl_append]

theorem onlyLowSoc_nil (cfg : GatewayConfig ℚ) : OnlyLowSoc cfg [] := by
  intro pre t post h
  simp at h

theorem onlyLowSoc_snoc {cfg : GatewayConfig ℚ} {hist : List (Telemetry ℚ)} {t : Telemetry ℚ} :
    OnlyLowSoc cfg (hist ++ [t]) ↔ OnlyLowSoc cfg hist ∧ (t.quality = .good →
      t.isPoint socPercent = true ∧ t.value ≤ cfg.min_discharge_soc ∧
        histTemp (hist ++ [t]) ≤ cfg.temp_high) := by
  constructor
  · intro h
    refine ⟨fun pre u post hq hg => ?_, fun hg => h hist t [] rfl hg⟩
    exact h pre u (post ++ [t]) (by simp [hq]) hg
  · rintro ⟨h, ht⟩ pre u post hq hg
    rcases List.eq_nil_or_concat post with rfl | ⟨post', w, rfl⟩
    · -- the last point is the one in question
      obtain ⟨rfl, hu⟩ := List.append_inj' hq rfl
      obtain rfl : t = u := by simpa using hu
      exact ht hg
    · have hq' : hist ++ [t] = (pre ++ u :: post') ++ [w] := by simp [hq]
      obtain ⟨hh, _⟩ := List.append_inj' hq' rfl
      exact h pre u post' hh hg

/-! ## The invariant -/

/-- What the engine remembers of a history. -/
structure EngineInv (cfg : GatewayConfig ℚ) (hist : List (Telemetry ℚ)) (e : StateEngine ℚ) :
    Prop where
  soc : e.soc_percent = histSoc hist
  temp : e.max_cell_temp_c = histTemp hist
  grid : e.grid_power_kw = histGrid hist
  state : (e.state = .init ∧ OnlyLowSoc cfg hist) ∨
    (e.state = .fault ∧ cfg.temp_high < histTemp hist ∧ ¬ OnlyLowSoc cfg hist) ∨
    (e.state = .running ∧ histTemp hist ≤ cfg.temp_high ∧ ¬ OnlyLowSoc cfg hist)

theorem engineInv_init (cfg : GatewayConfig ℚ) : EngineInv cfg [] stateEngineInit where
  soc := rfl
  temp := rfl
  grid := rfl
  state := Or.inl ⟨rfl, onlyLowSoc_nil cfg⟩

section Step

variable {cfg : GatewayConfig ℚ} {hist : List (Telemetry ℚ)} {e : StateEngine ℚ}
  {t : Telemetry ℚ}

/-- A point that is not GOOD adds nothing to what a history says. -/
theorem EngineInv.skip (h : EngineInv cfg hist e) (hq : t.quality ≠ .good) :
    EngineInv cfg (hist ++ [t]) e := by
  have hl : ∀ name start, lastGood name start (hist ++ [t]) = lastGood name start hist := by
    intro name start
    rw [lastGood_snoc, if_neg (fun hc => hq hc.1)]
  have ho : OnlyLowSoc cfg (hist ++ [t]) ↔ OnlyLowSoc cfg hist := by
    rw [onlyLowSoc_snoc]
    exact ⟨fun hc => hc.1, fun hc => ⟨hc, fun hg => absurd hg hq⟩⟩
  refine ⟨h.soc.trans (hl _ _).symm, h.temp.trans (hl _ _).symm, h.grid.trans (hl _ _).symm, ?_⟩
  rw [ho, histTemp, hl]
  exact h.state

/-- The snapshot after a GOOD point is the history's, one point on. -/
theorem EngineInv.snapshot (h : EngineInv cfg hist e) (hg : t.quality = .good) :
    (updateSnapshot e t).soc_percent = histSoc (hist ++ [t]) ∧
      (updateSnapshot e t).max_cell_temp_c = histTemp (hist ++ [t]) ∧
      (updateSnapshot e t).grid_power_kw = histGrid (hist ++ [t]) := by
  refine ⟨?_, ?_, ?_⟩
  · simp only [updateSnapshot_soc, histSoc, lastGood_snoc, hg, true_and, h.soc]
  · simp only [updateSnapshot_temp, histTemp, lastGood_snoc, hg, true_and, h.temp]
  · simp only [updateSnapshot_grid, histGrid, lastGood_snoc, hg, true_and, h.grid]

/-- The branch a GOOD point takes, in the history's terms. -/
inductive Branch (cfg : GatewayConfig ℚ) (hist : List (Telemetry ℚ)) (t : Telemetry ℚ) : Prop
  | hot (h : cfg.temp_high < histTemp hist)
  | lowSoc (hc : histTemp hist ≤ cfg.temp_high) (hp : t.isPoint socPercent = true)
      (hl : histSoc hist ≤ cfg.min_discharge_soc)
  | pass (hc : histTemp hist ≤ cfg.temp_high)
      (hn : cfg.min_discharge_soc < histSoc hist ∨ t.isPoint socPercent = false)

theorem branch (cfg : GatewayConfig ℚ) (hist : List (Telemetry ℚ)) (t : Telemetry ℚ) :
    Branch cfg hist t := by
  by_cases hh : cfg.temp_high < histTemp hist
  · exact .hot hh
  · by_cases hl : histSoc hist ≤ cfg.min_discharge_soc
    · cases hp : t.isPoint socPercent with
      | true => exact .lowSoc (not_lt.mp hh) hp hl
      | false => exact .pass (not_lt.mp hh) (Or.inr hp)
    · exact .pass (not_lt.mp hh) (Or.inl (not_le.mp hl))

theorem apply_hot {c : EngineCall} (h : EngineInv cfg hist e) (hg : c.telemetry.quality = .good)
    (hh : cfg.temp_high < histTemp (hist ++ [c.telemetry])) :
    c.apply cfg e = raiseAlarm { updateSnapshot e c.telemetry with state := .fault } c.ts_ms
      bmsTempHigh (ascii "max cell temperature exceeds limit") :=
  process_hot e cfg _ _ _ true hg (by simpa [(h.snapshot hg).2.1] using hh)

theorem apply_lowSoc {c : EngineCall} (h : EngineInv cfg hist e)
    (hg : c.telemetry.quality = .good) (hc : histTemp (hist ++ [c.telemetry]) ≤ cfg.temp_high)
    (hp : c.telemetry.isPoint socPercent = true)
    (hl : histSoc (hist ++ [c.telemetry]) ≤ cfg.min_discharge_soc) :
    c.apply cfg e = raiseAlarm (updateSnapshot e c.telemetry) c.ts_ms bmsSocLow
      (ascii "SOC below minimum discharge threshold") := by
  unfold EngineCall.apply
  rw [process_cool e cfg _ _ _ true true hg (by simpa [(h.snapshot hg).2.1] using hc)]
  exact processSoc_low _ cfg _ _ _ true (by simpa [(h.snapshot hg).1] using hl) hp

theorem apply_pass {c : EngineCall} (h : EngineInv cfg hist e)
    (hg : c.telemetry.quality = .good) (hc : histTemp (hist ++ [c.telemetry]) ≤ cfg.temp_high)
    (hn : cfg.min_discharge_soc < histSoc (hist ++ [c.telemetry]) ∨
      c.telemetry.isPoint socPercent = false) :
    c.apply cfg e =
      processStrategy (updateSnapshot e c.telemetry) cfg c.telemetry true c.command_id c.ts_ms := by
  unfold EngineCall.apply
  rw [process_cool e cfg _ _ _ true true hg (by simpa [(h.snapshot hg).2.1] using hc)]
  exact processSoc_pass _ cfg _ _ _ true (hn.imp_left fun hn => by
    simpa [(h.snapshot hg).1] using hn)

/-- A SOC reading does not move the latched temperature. -/
theorem histTemp_of_soc (hp : t.isPoint socPercent = true) :
    histTemp (hist ++ [t]) = histTemp hist := by
  unfold histTemp
  rw [lastGood_snoc, if_neg]
  rintro ⟨_, ht⟩
  rw [Telemetry.isPoint_unique hp socPercent_ne_maxCellTempC] at ht
  exact absurd ht (by simp)

/-- A GOOD SOC reading is the latched SOC. -/
theorem histSoc_of_soc (hg : t.quality = .good) (hp : t.isPoint socPercent = true) :
    histSoc (hist ++ [t]) = t.value := by
  unfold histSoc
  rw [lastGood_snoc, if_pos ⟨hg, hp⟩]

/-- **One call keeps the invariant**, with the history one point longer. -/
theorem EngineInv.step {c : EngineCall} (h : EngineInv cfg hist e) :
    EngineInv cfg (hist ++ [c.telemetry]) (c.apply cfg e).engine := by
  by_cases hg : c.telemetry.quality = .good
  swap
  · rw [EngineCall.apply, process_notGood e cfg _ _ _ true true hg]
    exact h.skip hg
  obtain ⟨hs, ht, hgr⟩ := h.snapshot hg
  cases branch cfg (hist ++ [c.telemetry]) c.telemetry with
  | hot hh =>
    rw [apply_hot h hg hh]
    refine ⟨hs, ht, hgr, Or.inr (Or.inl ⟨rfl, hh, fun ho => ?_⟩)⟩
    exact absurd ((onlyLowSoc_snoc.mp ho).2 hg).2.2 (not_le.mpr hh)
  | lowSoc hc hp hl =>
    rw [apply_lowSoc h hg hc hp hl]
    refine ⟨hs, ht, hgr, ?_⟩
    -- `state` is whatever it was; FAULT is excluded by the temperature it would need
    simp only [raiseAlarm, updateSnapshot_state]
    have hl' : c.telemetry.value ≤ cfg.min_discharge_soc := by
      rwa [histSoc_of_soc hg hp] at hl
    rcases h.state with ⟨hst, ho⟩ | ⟨_, hh, _⟩ | ⟨hst, _, ho⟩
    · exact Or.inl ⟨hst, onlyLowSoc_snoc.mpr ⟨ho, fun _ => ⟨hp, hl', hc⟩⟩⟩
    · rw [histTemp_of_soc hp] at hc
      exact absurd hc (not_le.mpr hh)
    · exact Or.inr (Or.inr ⟨hst, hc, fun ho' => ho (onlyLowSoc_snoc.mp ho').1⟩)
  | pass hc hn =>
    rw [apply_pass h hg hc hn, (processStrategy_engine _ _ _ _ _ _).1]
    refine ⟨hs, ht, hgr, Or.inr (Or.inr ⟨rfl, hc, fun ho => ?_⟩)⟩
    obtain ⟨hp, hv, _⟩ := (onlyLowSoc_snoc.mp ho).2 hg
    rcases hn with hn | hn
    · rw [histSoc_of_soc hg hp] at hn
      exact absurd hv (not_le.mpr hn)
    · rw [hp] at hn
      exact absurd hn (by simp)

end Step

/-- **Every run keeps it.** -/
theorem engineInv_run (cfg : GatewayConfig ℚ) (calls : List EngineCall) :
    EngineInv cfg (calls.map EngineCall.telemetry) (engineRun cfg calls) := by
  induction calls using List.reverseRecOn with
  | nil => exact engineInv_init cfg
  | append_singleton calls c ih =>
    rw [engineRun, List.foldl_append, List.map_append]
    exact ih.step

/-! ## The strategy's command -/

theorem clampDischarge_eq_min {kw max_kw : ℚ} (h : 0 ≤ kw) :
    clampDischarge kw max_kw = min kw max_kw := by
  simp only [clampDischarge, CDouble.lt_rat, CDouble.lit_rat, decide_eq_true_eq]
  rw [if_neg (not_lt.mpr h)]
  by_cases hm : max_kw < kw
  · rw [if_pos hm, min_eq_right (le_of_lt hm)]
  · rw [if_neg hm, min_eq_left (not_lt.mp hm)]

/-- The command the strategy issues, and exactly when. -/
theorem processStrategy_command (e : StateEngine ℚ) (cfg : GatewayConfig ℚ) (t : Telemetry ℚ)
    (cid ts : UInt64) :
    (processStrategy e cfg t true cid ts).command =
      if t.isPoint gridPowerKw = true ∧ cfg.min_discharge_soc < e.soc_percent ∧
          cfg.peak_shaving_threshold_kw < e.grid_power_kw ∧ 0 < cfg.max_discharge_kw then
        some (commandInitSetpoint cid ts (ascii "pcs_001") (ascii "target_power_kw")
          (-min (e.grid_power_kw - cfg.peak_shaving_threshold_kw) cfg.max_discharge_kw) 3)
      else none := by
  by_cases hp : t.isPoint gridPowerKw = true
  swap
  · rw [if_neg (fun hc => hp hc.1)]
    simp [processStrategy, hp, ProcessResult.quiet]
  by_cases hs : e.soc_percent ≤ cfg.min_discharge_soc
  · rw [if_neg (fun hc => absurd hs (not_le.mpr hc.2.1))]
    simp [processStrategy, hp, hs, ProcessResult.quiet]
  by_cases hgr : e.grid_power_kw ≤ cfg.peak_shaving_threshold_kw
  · rw [if_neg (fun hc => absurd hgr (not_le.mpr hc.2.2.1))]
    simp [processStrategy, hp, hs, hgr, ProcessResult.quiet]
  have hkw : 0 < e.grid_power_kw - cfg.peak_shaving_threshold_kw := by linarith
  by_cases hm : 0 < cfg.max_discharge_kw
  · -- both arguments of the minimum are positive, so the command is issued
    have hmin : 0 < min (e.grid_power_kw - cfg.peak_shaving_threshold_kw) cfg.max_discharge_kw :=
      lt_min hkw hm
    rw [if_pos ⟨hp, not_le.mp hs, not_le.mp hgr, hm⟩]
    simp only [processStrategy, hp, CDouble.le_rat, CDouble.sub_rat, CDouble.lit_rat,
      CDouble.neg_rat, clampDischarge_eq_min (le_of_lt hkw), decide_eq_false hs,
      decide_eq_false hgr, decide_eq_false (not_le.mpr hmin)]
    rfl
  · have hmin : min (e.grid_power_kw - cfg.peak_shaving_threshold_kw) cfg.max_discharge_kw ≤ 0 :=
      min_le_of_right_le (not_lt.mp hm)
    rw [if_neg (fun hc => hm hc.2.2.2)]
    simp only [processStrategy, hp, CDouble.le_rat, CDouble.sub_rat, CDouble.lit_rat,
      clampDischarge_eq_min (le_of_lt hkw), decide_eq_false hs,
      decide_eq_false hgr, decide_eq_true hmin]
    rfl

/-! ## The exact semantics -/

/-- What the next call does, said of the history that includes its point: `hist` are the
    points before it, `e` the engine it is made on, and `soc`, `temp`, `grid` the last GOOD
    values with the new point counted in. -/
structure ExactHistory (cfg : GatewayConfig ℚ) (hist : List (Telemetry ℚ)) (e : StateEngine ℚ)
    (t : Telemetry ℚ) (r : ProcessResult ℚ) (soc temp grid : ℚ) : Prop where
  fault : t.quality = .good → (r.engine.state = .fault ↔ cfg.temp_high < temp)
  init : t.quality = .good → (r.engine.state = .init ↔ OnlyLowSoc cfg (hist ++ [t]))
  running : t.quality = .good → (r.engine.state = .running ↔
    ¬ cfg.temp_high < temp ∧ ¬ OnlyLowSoc cfg (hist ++ [t]))
  notGood : t.quality ≠ .good → r = .quiet e
  tempAlarm : (∃ a, r.alarm = some a ∧ a.code.bytes = bmsTempHigh) ↔
    t.quality = .good ∧ cfg.temp_high < temp
  socAlarm : (∃ a, r.alarm = some a ∧ a.code.bytes = bmsSocLow) ↔
    t.quality = .good ∧ t.isPoint socPercent = true ∧ temp ≤ cfg.temp_high ∧
      soc ≤ cfg.min_discharge_soc
  command : (∃ c, r.command = some c) ↔
    t.quality = .good ∧ t.isPoint gridPowerKw = true ∧ temp ≤ cfg.temp_high ∧
      cfg.min_discharge_soc < soc ∧ cfg.peak_shaving_threshold_kw < grid ∧
      0 < cfg.max_discharge_kw
  target : ∀ c, r.command = some c →
    c.target_value = -min (grid - cfg.peak_shaving_threshold_kw) cfg.max_discharge_kw

/-- A low SOC reading is not a grid reading, so the low-SOC branch never wants a command. -/
theorem not_command_of_soc {t : Telemetry ℚ} (hp : t.isPoint socPercent = true) :
    t.isPoint gridPowerKw = false :=
  Telemetry.isPoint_unique hp socPercent_ne_gridPowerKw

section Exact

variable {cfg : GatewayConfig ℚ} {hist : List (Telemetry ℚ)} {e : StateEngine ℚ}
  {c : EngineCall}

theorem exact_of_notGood (hq : c.telemetry.quality ≠ .good) {soc temp grid : ℚ} :
    ExactHistory cfg hist e c.telemetry (c.apply cfg e) soc temp grid := by
  have hr : c.apply cfg e = .quiet e := process_notGood e cfg _ _ _ true true hq
  rw [hr]
  exact
    { fault := fun hg => absurd hg hq
      init := fun hg => absurd hg hq
      running := fun hg => absurd hg hq
      notGood := fun _ => rfl
      tempAlarm := by simp [ProcessResult.quiet, hq]
      socAlarm := by simp [ProcessResult.quiet, hq]
      command := by simp [ProcessResult.quiet, hq]
      target := by simp [ProcessResult.quiet] }

/-- The outputs of a GOOD point, branch by branch; the three clauses on `state` come from the
    invariant after the step and are the same in every branch. -/
theorem exact_of_good (h : EngineInv cfg hist e) (hg : c.telemetry.quality = .good) :
    ExactHistory cfg hist e c.telemetry (c.apply cfg e) (histSoc (hist ++ [c.telemetry]))
      (histTemp (hist ++ [c.telemetry])) (histGrid (hist ++ [c.telemetry])) := by
  obtain ⟨hs, ht, hgr⟩ := h.snapshot hg
  have hst := (h.step (c := c)).state
  have hlow : OnlyLowSoc cfg (hist ++ [c.telemetry]) →
      ¬ cfg.temp_high < histTemp (hist ++ [c.telemetry]) :=
    fun ho => not_lt.mpr ((onlyLowSoc_snoc.mp ho).2 hg).2.2
  have hfault : (c.apply cfg e).engine.state = .fault ↔
      cfg.temp_high < histTemp (hist ++ [c.telemetry]) := by
    rcases hst with ⟨h1, h2⟩ | ⟨h1, h2, _⟩ | ⟨h1, h2, _⟩
    · simp [h1, not_lt.mp (hlow h2)]
    · simp [h1, h2]
    · simp [h1, h2]
  have hinit : (c.apply cfg e).engine.state = .init ↔
      OnlyLowSoc cfg (hist ++ [c.telemetry]) := by
    rcases hst with ⟨h1, h2⟩ | ⟨h1, _, h3⟩ | ⟨h1, _, h3⟩
    · simp [h1, h2]
    · simp [h1, h3]
    · simp [h1, h3]
  have hrun : (c.apply cfg e).engine.state = .running ↔
      ¬ cfg.temp_high < histTemp (hist ++ [c.telemetry]) ∧
        ¬ OnlyLowSoc cfg (hist ++ [c.telemetry]) := by
    rcases hst with ⟨h1, h2⟩ | ⟨h1, h2, _⟩ | ⟨h1, h2, h3⟩
    · simp [h1, h2]
    · simp [h1, h2]
    · simp [h1, h2, h3]
  refine ⟨fun _ => hfault, fun _ => hinit, fun _ => hrun, fun hq => absurd hg hq, ?_, ?_, ?_, ?_⟩
  all_goals
    cases branch cfg (hist ++ [c.telemetry]) c.telemetry with
    | hot hh => ?_
    | lowSoc hc hp hl => ?_
    | pass hc hn => ?_
  -- the temperature alarm
  · rw [apply_hot h hg hh, raiseAlarm_alarm_code copy_bmsTempHigh]
    simp [hg, hh]
  · rw [apply_lowSoc h hg hc hp hl, raiseAlarm_alarm_code copy_bmsSocLow]
    simp [bmsTempHigh_ne_bmsSocLow.symm, not_lt.mpr hc]
  · rw [apply_pass h hg hc hn, (processStrategy_engine _ _ _ _ _ _).2]
    simp [not_lt.mpr hc]
  -- the SOC alarm
  · rw [apply_hot h hg hh, raiseAlarm_alarm_code copy_bmsTempHigh]
    simp [bmsTempHigh_ne_bmsSocLow, hh]
  · rw [apply_lowSoc h hg hc hp hl, raiseAlarm_alarm_code copy_bmsSocLow]
    simp [hg, hp, hc, hl]
  · rw [apply_pass h hg hc hn, (processStrategy_engine _ _ _ _ _ _).2]
    simp only [reduceCtorEq, false_and, exists_false, false_iff, not_and]
    intro _ hp _
    rcases hn with hn | hn
    · exact not_le.mpr hn
    · rw [hp] at hn
      exact absurd hn (by simp)
  -- the command
  · rw [apply_hot h hg hh]
    simp [raiseAlarm, hh]
  · rw [apply_lowSoc h hg hc hp hl]
    simp [raiseAlarm, not_command_of_soc hp]
  · rw [apply_pass h hg hc hn, processStrategy_command, hs, hgr]
    simp only [hg, hc, true_and]
    split_ifs with hcond
    · simp [hcond]
    · simpa using hcond
  -- its target
  · rw [apply_hot h hg hh]
    simp [raiseAlarm]
  · rw [apply_lowSoc h hg hc hp hl]
    simp [raiseAlarm]
  · rw [apply_pass h hg hc hn, processStrategy_command, hs, hgr]
    intro cmd hcmd
    split_ifs at hcmd with hcond
    rw [← Option.some.inj hcmd]
    rfl

end Exact

/-- **Exact history semantics.** Whatever the configuration and however long the run, the
    next call's state, alarms and command are the stated functions of the points seen. -/
theorem engine_exact_history (cfg : GatewayConfig ℚ) (calls : List EngineCall) (c : EngineCall) :
    ExactHistory cfg (calls.map EngineCall.telemetry) (engineRun cfg calls) c.telemetry
      (c.apply cfg (engineRun cfg calls))
      (histSoc (calls.map EngineCall.telemetry ++ [c.telemetry]))
      (histTemp (calls.map EngineCall.telemetry ++ [c.telemetry]))
      (histGrid (calls.map EngineCall.telemetry ++ [c.telemetry])) := by
  by_cases hg : c.telemetry.quality = .good
  · exact exact_of_good (engineInv_run cfg calls) hg
  · exact exact_of_notGood hg

end Proof
end EdgeFlow
