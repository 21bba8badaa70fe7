import EdgeFlow.Ingress.ModbusRtu
import EdgeFlow.Lib.Binary64
import EdgeFlow.Proof.MessageSizes
import EdgeFlow.Runtime.Worker

/-!
# The worker on the machine's numbers

What is proved of the engine with numbers in it is proved at `ℚ`. The gateway computes with
`double`s: a register is multiplied by `0.1`, the result compared with the limits, subtracted from
one of them and printed. Here the two run side by side, on the same polls, and the difference that
is left is stated: the numbers themselves, in the rows, the engine and the setpoints, differ in
their last bits, and nothing that is decided or printed differs at all.

The limits have to be whole numbers below `2^16`, as they are by default. A register of `3` is `0.3` on the line
and more than `0.3` in the machine.
-/

set_option autoImplicit false

namespace EdgeFlow

open Lib

variable {V W : Type}

/-! ## The same but for the numbers -/

def GatewayConfig.map (f : V → W) (cfg : GatewayConfig V) : GatewayConfig W :=
  { cfg with
    deadband := f cfg.deadband
    temp_high := f cfg.temp_high
    peak_shaving_threshold_kw := f cfg.peak_shaving_threshold_kw
    max_discharge_kw := f cfg.max_discharge_kw
    min_discharge_soc := f cfg.min_discharge_soc }

def Telemetry.erase (p : Telemetry V) : Telemetry Unit := { p with value := () }

def Command.erase (c : Command V) : Command Unit := { c with target_value := () }

def TelemetryRow.erase (r : TelemetryRow V) : TelemetryRow Unit := { r with value := () }

def CommandRow.erase (r : CommandRow V) : CommandRow Unit := { r with value := () }

/-- Two points that differ in the value only, and the values are related. -/
def Telemetry.Rel (R : V → W → Prop) (p : Telemetry V) (q : Telemetry W) : Prop :=
  p.erase = q.erase ∧ R p.value q.value

def Command.Rel (R : V → W → Prop) (c : Command V) (d : Command W) : Prop :=
  c.erase = d.erase ∧ R c.target_value d.target_value

/-- Tables with the same keys, row by row. -/
def RowsRel {A B : Type} (R : A → B → Prop) (s : Table A) (t : Table B) : Prop :=
  s.seq = t.seq ∧ List.Forall₂ (fun p q => p.1 = q.1 ∧ R p.2 q.2) s.rows t.rows

/-- Stores that differ in the numbers of two columns only. -/
structure Storage.Rel (R S : V → W → Prop) (a : Storage V) (b : Storage W) : Prop where
  use_sqlite : a.use_sqlite = b.use_sqlite
  telemetry : RowsRel (fun r s => r.erase = s.erase ∧ R r.value s.value) a.telemetry b.telemetry
  alarms : a.alarms = b.alarms
  commands : RowsRel (fun r s => r.erase = s.erase ∧ S r.value s.value) a.commands b.commands
  last_insert_rowid : a.last_insert_rowid = b.last_insert_rowid
  jsonl : a.jsonl = b.jsonl
  inserts : a.inserts = b.inserts
  appends : a.appends = b.appends

structure StateEngine.Rel (R : V → W → Prop) (a : StateEngine V) (b : StateEngine W) : Prop where
  state : a.state = b.state
  soc_percent : R a.soc_percent b.soc_percent
  max_cell_temp_c : R a.max_cell_temp_c b.max_cell_temp_c
  grid_power_kw : R a.grid_power_kw b.grid_power_kw
  next_alarm_id : a.next_alarm_id = b.next_alarm_id

structure CommandScheduler.Rel (S : V → W → Prop) (a : CommandScheduler V)
    (b : CommandScheduler W) : Prop where
  queue : List.Forall₂ (Command.Rel S) a.queue b.queue
  next_command_id : a.next_command_id = b.next_command_id

/-- Workers that differ in numbers only: `R` relates the readings, `S` the setpoints. -/
structure Control.Rel (R S : V → W → Prop) (a : Control V) (b : Control W) : Prop where
  engine : StateEngine.Rel R a.engine b.engine
  scheduler : CommandScheduler.Rel S a.scheduler b.scheduler
  db : Storage.Rel R S a.db b.db
  writes : List.Forall₂ (Command.Rel S) a.writes b.writes
  alarmed : a.alarmed = b.alarmed
  submitted : List.Forall₂ (Command.Rel S) a.submitted b.submitted

/-! ## Readings, limits and setpoints -/

/-- A `double` that stands for a reading. -/
def Reading (x : Binary64) (q : ℚ) : Prop :=
  Binary64.Close (2 ^ (-35 : ℤ)) x q ∧ 0 ≤ q ∧ q < 2 ^ 16

/-- A `double` that stands for a setpoint: within `2^(-34)` kW, and exact where it is whole. -/
def Setpoint (x : Binary64) (q : ℚ) : Prop := Binary64.Near (2 ^ (-34 : ℤ)) x q

/-- A whole number of a register's size. -/
def Whole (q : ℚ) : Prop := ∃ n : ℕ, n < 2 ^ 16 ∧ q = n

/-- The limits the engine compares with are whole. -/
structure WholeLimits (cfg : GatewayConfig ℚ) : Prop where
  temp_high : Whole cfg.temp_high
  min_discharge_soc : Whole cfg.min_discharge_soc
  peak_shaving_threshold_kw : Whole cfg.peak_shaving_threshold_kw
  max_discharge_kw : Whole cfg.max_discharge_kw

/-! ## What the worker is fed -/

/-- One turn of `ingress_main`: what libmodbus and the clock answer, and which of the points the
    ring takes. -/
structure PollTurn where
  o : ModbusOutcome
  pushed : List Bool

/-- `points` of `ingress_main`, of which a poll fills the first three. -/
def ingressPoints [CDouble V] : List (Telemetry V) :=
  List.replicate 8 (telemetryInit 0 [] [] (CDouble.lit 0) [] 0)

/-- The points that reach the worker, turn by turn. -/
def fed [CDoubleArith V] (cfg : GatewayConfig V) :
    List PollTurn → UInt32 → ModbusState → List (Telemetry V)
  | [], _, _ => []
  | turn :: turns, seq, s =>
    let (n, points, seq, s) := modbusRtuPoll cfg turn.o ingressPoints seq s
    (((points.take n.toNat).zip turn.pushed).filterMap fun p => if p.2 then some p.1 else none) ++
      fed cfg turns seq s

open Binary64

/-! ## The limits -/

theorem Whole.near {q : ℚ} (h : Whole q) : Near 0 (ofRat q) q := by
  obtain ⟨n, hn, rfl⟩ := h
  exact (close_natCast (by omega)).toNear

theorem Whole.value {q : ℚ} (h : Whole q) : (ofRat q).value = q := by
  obtain ⟨n, hn, rfl⟩ := h
  exact (close_natCast (by omega)).whole n (by push_cast; rfl)

/-- A number that stands for another is on the same side of a limit. -/
theorem compare_limit {ε : ℚ} {x : Binary64} {q t : ℚ} (h : Near ε x q) (hε : ε < 1 / 10)
    (ht : Whole t) :
    CDouble.lt (ofRat t) x = CDouble.lt t q ∧ CDouble.le x (ofRat t) = CDouble.le q t ∧
      CDouble.lt x (ofRat t) = CDouble.lt q t := by
  obtain ⟨n, hn, rfl⟩ := id ht
  obtain ⟨hlt, hle⟩ := h.compare hε n
  rw [Int.cast_natCast] at hlt hle
  refine ⟨?_, ?_, ?_⟩
  · rw [Binary64.lt_eq ht.near.finite h.finite, ht.value, CDouble.lt_rat, decide_eq_decide]
    exact not_iff_not.mp (by rw [not_lt, not_lt, hle])
  · rw [Binary64.le_eq h.finite ht.near.finite, ht.value, CDouble.le_rat, decide_eq_decide, hle]
  · rw [Binary64.lt_eq h.finite ht.near.finite, ht.value, CDouble.lt_rat, decide_eq_decide, hlt]

theorem Reading.lt_limit {x : Binary64} {q t : ℚ} (h : Reading x q) (ht : Whole t) :
    CDouble.lt (ofRat t) x = CDouble.lt t q :=
  (compare_limit h.1.toNear (by norm_num) ht).1

theorem Reading.le_limit {x : Binary64} {q t : ℚ} (h : Reading x q) (ht : Whole t) :
    CDouble.le x (ofRat t) = CDouble.le q t :=
  (compare_limit h.1.toNear (by norm_num) ht).2.1

theorem reading_natCast {n : ℕ} (h : n < 2 ^ 16) : Reading (ofRat n) n := by
  have hclose := close_natCast (n := n) (by omega)
  refine ⟨⟨⟨hclose.finite, ?_, hclose.whole, hclose.tenths⟩, hclose.sign⟩, Nat.cast_nonneg n,
    by exact_mod_cast h⟩
  rw [hclose.whole n (by push_cast; rfl), sub_self, abs_zero]
  norm_num

theorem whole_zero : Whole 0 := ⟨0, by norm_num, by norm_num⟩

/-! ## The texts -/

section
variable {p : Telemetry Binary64} {q : Telemetry ℚ} (h : Telemetry.Rel Reading p q)
include h

/-- What is printed of a point, the digits of its value included. -/
theorem Telemetry.Rel.texts :
    p.ts_ms = q.ts_ms ∧ p.device_id = q.device_id ∧ p.point_id = q.point_id ∧
      CDouble.fmtF4 p.value = CDouble.fmtF4 q.value ∧ p.unit = q.unit ∧ p.quality = q.quality :=
  ⟨congrArg Telemetry.ts_ms h.1, congrArg Telemetry.device_id h.1, congrArg Telemetry.point_id h.1,
    h.2.1.fmtF4 (by norm_num), congrArg Telemetry.unit h.1, congrArg Telemetry.quality h.1⟩

/-- The two records are one text. -/
theorem jsonlTelemetryText_rel : jsonlTelemetryText p = jsonlTelemetryText q := by
  obtain ⟨hts, hdevice, hpoint, hdigits, hunit, hquality⟩ := h.texts
  unfold jsonlTelemetryText
  rw [hts, hdevice, hpoint, hdigits, hunit, hquality]

/-- And so are the two messages. -/
theorem telemetryToJson_rel (out_len : Nat) :
    telemetryToJson p out_len = telemetryToJson q out_len := by
  obtain ⟨hts, hdevice, hpoint, hdigits, hunit, hquality⟩ := h.texts
  unfold telemetryToJson telemetryJsonHead
  rw [hts, hdevice, hpoint, hdigits, hunit, hquality]

end

/-! ## The store -/

section
variable {R S : V → W → Prop}

theorem RowsRel.insert {A B : Type} {T : A → B → Prop} {s : Table A} {t : Table B} {a : A} {b : B}
    (h : RowsRel T s t) (hab : T a b) : RowsRel T (s.insert a) (t.insert b) := by
  refine ⟨congrArg (· + 1) h.1, List.rel_append h.2 ?_⟩
  exact .cons ⟨congrArg (· + 1) h.1, hab⟩ .nil

theorem appendJsonlLine_rel (env : StorageEnv) {a : Storage V} {b : Storage W}
    (h : Storage.Rel R S a b) (line : Bytes) :
    Storage.Rel R S (appendJsonlLine env a line) (appendJsonlLine env b line) := by
  refine { h with jsonl := ?_, appends := congrArg (· + 1) h.appends }
  simp only [appendJsonlLine, h.jsonl, h.appends]

/-- A row goes into both stores or into neither. -/
theorem storageAppendAlarm_rel (env : StorageEnv) {a : Storage V} {b : Storage W}
    (h : Storage.Rel R S a b) (alarm : AlarmEvent) :
    Storage.Rel R S (storageAppendAlarm env a alarm) (storageAppendAlarm env b alarm) := by
  unfold storageAppendAlarm
  dsimp only
  generalize snprintf 640 _ = line
  have hline := appendJsonlLine_rel env h line
  generalize appendJsonlLine env a line = a' at hline ⊢
  generalize appendJsonlLine env b line = b' at hline ⊢
  rw [hline.use_sqlite, hline.inserts, hline.alarms]
  split_ifs
  · exact hline
  · exact { hline with
      use_sqlite := rfl
      alarms := rfl
      last_insert_rowid := rfl
      inserts := rfl }
  · exact { hline with use_sqlite := rfl, alarms := rfl, inserts := rfl }

theorem storageAppendCommand_rel (env : StorageEnv) {a : Storage V} {b : Storage W}
    (h : Storage.Rel R S a b) {c : Command V} {d : Command W} (hcd : Command.Rel S c d) :
    Storage.Rel R S (storageAppendCommand env a c) (storageAppendCommand env b d) := by
  have hid : c.command_id = d.command_id := congrArg Command.command_id hcd.1
  have hstate : c.state = d.state := congrArg Command.state hcd.1
  have hcolumns : (commandColumns c).erase = (commandColumns d).erase :=
    congrArg (fun e : Command Unit => (commandColumns e).erase) hcd.1
  unfold storageAppendCommand
  dsimp only
  rw [hid, hstate]
  generalize snprintf 640 _ = line
  have hline := appendJsonlLine_rel env h line
  generalize appendJsonlLine env a line = a' at hline ⊢
  generalize appendJsonlLine env b line = b' at hline ⊢
  rw [hline.use_sqlite, hline.inserts, hline.commands.1]
  split_ifs
  · exact hline
  · exact { hline with
      use_sqlite := rfl
      commands := hline.commands.insert ⟨hcolumns, hcd.2⟩
      last_insert_rowid := rfl
      inserts := rfl }
  · exact { hline with use_sqlite := rfl, inserts := rfl }

end

theorem storageInsertTelemetry_rel (env : StorageEnv) {S : Binary64 → ℚ → Prop}
    {a : Storage Binary64} {b : Storage ℚ} (h : Storage.Rel Reading S a b)
    {p : Telemetry Binary64} {q : Telemetry ℚ} (hpq : Telemetry.Rel Reading p q) :
    Storage.Rel Reading S (storageInsertTelemetry env a p).2
      (storageInsertTelemetry env b q).2 := by
  have hcolumns : (telemetryColumns p).erase = (telemetryColumns q).erase :=
    congrArg (fun e : Telemetry Unit => (telemetryColumns e).erase) hpq.1
  unfold storageInsertTelemetry jsonlAppendTelemetry
  dsimp only
  rw [jsonlTelemetryText_rel hpq]
  generalize snprintf 512 _ = line
  have hline := appendJsonlLine_rel env h line
  generalize appendJsonlLine env a line = a' at hline ⊢
  generalize appendJsonlLine env b line = b' at hline ⊢
  rw [hline.use_sqlite, hline.inserts, hline.telemetry.1]
  split_ifs
  · exact hline
  · exact { hline with
      use_sqlite := rfl
      telemetry := hline.telemetry.insert ⟨hcolumns, hpq.2⟩
      last_insert_rowid := rfl
      inserts := rfl }
  · exact { hline with use_sqlite := rfl, inserts := rfl }

/-! ## The engine -/

/-- Calls that differ in numbers only. -/
structure ProcessResult.Rel (r : ProcessResult Binary64) (s : ProcessResult ℚ) : Prop where
  ret : r.ret = s.ret
  engine : StateEngine.Rel Reading r.engine s.engine
  alarm : r.alarm = s.alarm
  command : Option.Rel (Command.Rel Setpoint) r.command s.command

theorem Telemetry.Rel.isPoint {R : V → W → Prop} {p : Telemetry V} {q : Telemetry W}
    (h : Telemetry.Rel R p q) (name : Bytes) : p.isPoint name = q.isPoint name := by
  have hpoint : p.point_id = q.point_id := congrArg Telemetry.point_id h.1
  unfold Telemetry.isPoint
  rw [hpoint]

section
variable {a : StateEngine Binary64} {b : StateEngine ℚ} {p : Telemetry Binary64} {q : Telemetry ℚ}

theorem updateSnapshot_rel (h : StateEngine.Rel Reading a b) (hpq : Telemetry.Rel Reading p q) :
    StateEngine.Rel Reading (updateSnapshot a p) (updateSnapshot b q) := by
  unfold updateSnapshot
  rw [hpq.isPoint, hpq.isPoint, hpq.isPoint]
  split_ifs
  · exact { h with soc_percent := hpq.2 }
  · exact { h with max_cell_temp_c := hpq.2 }
  · exact { h with grid_power_kw := hpq.2 }
  · exact h

theorem quiet_rel (h : StateEngine.Rel Reading a b) :
    (ProcessResult.quiet a).Rel (.quiet b) :=
  ⟨rfl, h, rfl, .none⟩

theorem raiseAlarm_rel (h : StateEngine.Rel Reading a b) (ts_ms : UInt64) (code message : Bytes) :
    (raiseAlarm a ts_ms code message).Rel (raiseAlarm b ts_ms code message) := by
  unfold raiseAlarm
  rw [h.next_alarm_id]
  exact ⟨rfl, { h with next_alarm_id := rfl }, rfl, .none⟩

/-- What is left above a limit. -/
theorem sub_limit {x : Binary64} {y t : ℚ} (h : Reading x y) (ht : Whole t) (hpeak : t < y) :
    Setpoint (CDouble.sub x (ofRat t)) (y - t) := by
  obtain ⟨n, hn, rfl⟩ := id ht
  have hn' : (n : ℚ) < 2 ^ 16 := by exact_mod_cast hn
  have hneg : Near 0 (Binary64.neg (ofRat n)) ((-n : ℤ) : ℚ) := by
    push_cast
    exact ht.near.neg
  have hsub : y - n = y + ((-n : ℤ) : ℚ) := by
    push_cast
    ring
  have hnonneg : (0 : ℚ) ≤ n := Nat.cast_nonneg n
  have hclose := h.1.toNear.whole_add hneg (by norm_num)
    (by rw [← hsub, abs_lt]; constructor <;> linarith [h.2.1, h.2.2])
    (by rw [← hsub]; exact (sub_pos.mpr hpeak).ne')
  rw [← hsub] at hclose
  refine ⟨hclose.finite, hclose.near.trans ?_, hclose.whole, hclose.tenths⟩
  norm_num

theorem Whole.setpoint {m : ℚ} (h : Whole m) : Setpoint (ofRat m) m :=
  ⟨h.near.finite, h.near.near.trans (by norm_num), h.near.whole, h.near.tenths⟩

theorem Setpoint.compare {x : Binary64} {q t : ℚ} (h : Setpoint x q) (ht : Whole t) :
    CDouble.lt (ofRat t) x = CDouble.lt t q ∧ CDouble.le x (ofRat t) = CDouble.le q t ∧
      CDouble.lt x (ofRat t) = CDouble.lt q t :=
  compare_limit h (by norm_num) ht

/-- The clamp takes the same branch on both, and what it returns is a setpoint. -/
theorem clampDischarge_rel {x : Binary64} {y m : ℚ} (h : Setpoint x y) (hm : Whole m) :
    Setpoint (clampDischarge x (ofRat m)) (clampDischarge y m) := by
  have hzero : CDouble.lt x (CDouble.lit 0) = CDouble.lt y (CDouble.lit 0) :=
    (h.compare whole_zero).2.2
  unfold clampDischarge
  rw [hzero, (h.compare hm).1]
  split_ifs
  · exact whole_zero.setpoint
  · exact hm.setpoint
  · exact h

variable {cfg : GatewayConfig ℚ} (hcfg : WholeLimits cfg)
include hcfg

/-- The two comparisons the SOC alarm and the strategy share. -/
theorem le_limits (h : StateEngine.Rel Reading a b) :
    CDouble.le a.soc_percent (cfg.map ofRat).min_discharge_soc =
        CDouble.le b.soc_percent cfg.min_discharge_soc ∧
      CDouble.le a.grid_power_kw (cfg.map ofRat).peak_shaving_threshold_kw =
        CDouble.le b.grid_power_kw cfg.peak_shaving_threshold_kw :=
  ⟨h.soc_percent.le_limit hcfg.min_discharge_soc,
    h.grid_power_kw.le_limit hcfg.peak_shaving_threshold_kw⟩

theorem processStrategy_rel (h : StateEngine.Rel Reading a b) (hpq : Telemetry.Rel Reading p q)
    (command : Bool) (command_id ts_ms : UInt64) :
    (processStrategy a (cfg.map ofRat) p command command_id ts_ms).Rel
      (processStrategy b cfg q command command_id ts_ms) := by
  have hrun : StateEngine.Rel Reading { a with state := .running } { b with state := .running } :=
    { h with state := rfl }
  obtain ⟨hsoc, hgrid⟩ := le_limits hcfg h
  simp only [processStrategy, hpq.isPoint, hsoc, hgrid]
  split_ifs with hpoint hlow hpeak hreal hexact hexact
  · exact quiet_rel hrun
  · exact quiet_rel hrun
  · exact quiet_rel hrun
  all_goals
    -- above the limit there is something to discharge, and both agree whether it is anything
    rw [CDouble.le_rat, decide_eq_true_eq, not_le] at hpeak
    have hset := clampDischarge_rel (sub_limit h.grid_power_kw hcfg.peak_shaving_threshold_kw hpeak)
      hcfg.max_discharge_kw
    have hnone : CDouble.le (clampDischarge (CDouble.sub a.grid_power_kw
        (cfg.map ofRat).peak_shaving_threshold_kw) (cfg.map ofRat).max_discharge_kw)
          (CDouble.lit 0) =
        CDouble.le (clampDischarge (CDouble.sub b.grid_power_kw cfg.peak_shaving_threshold_kw)
          cfg.max_discharge_kw) (CDouble.lit 0) := (hset.compare whole_zero).2.1
  · exact quiet_rel hrun
  · exact absurd (hnone ▸ hreal) hexact
  · exact absurd (hnone ▸ hexact) hreal
  · exact ⟨rfl, hrun, rfl, .some ⟨rfl, hset.neg⟩⟩

theorem processSoc_rel (h : StateEngine.Rel Reading a b) (hpq : Telemetry.Rel Reading p q)
    (alarm command : Bool) (command_id ts_ms : UInt64) :
    (processSoc a (cfg.map ofRat) p alarm command command_id ts_ms).Rel
      (processSoc b cfg q alarm command command_id ts_ms) := by
  unfold processSoc
  rw [hpq.isPoint, (le_limits hcfg h).1]
  split_ifs
  · exact raiseAlarm_rel h ts_ms _ _
  · exact processStrategy_rel hcfg h hpq command command_id ts_ms

/-- **The engine decides the same on both.** -/
theorem stateEngineProcessTelemetry_rel (h : StateEngine.Rel Reading a b)
    (hpq : Telemetry.Rel Reading p q) (alarm command : Bool) (command_id ts_ms : UInt64) :
    (stateEngineProcessTelemetry a (cfg.map ofRat) p alarm command command_id ts_ms).Rel
      (stateEngineProcessTelemetry b cfg q alarm command command_id ts_ms) := by
  have hquality : p.quality = q.quality := congrArg Telemetry.quality hpq.1
  have hsnap := updateSnapshot_rel h hpq
  have htemp : CDouble.lt (cfg.map ofRat).temp_high (updateSnapshot a p).max_cell_temp_c =
      CDouble.lt cfg.temp_high (updateSnapshot b q).max_cell_temp_c :=
    hsnap.max_cell_temp_c.lt_limit hcfg.temp_high
  have hfault : StateEngine.Rel Reading { updateSnapshot a p with state := .fault }
      { updateSnapshot b q with state := .fault } := { hsnap with state := rfl }
  unfold stateEngineProcessTelemetry
  dsimp only
  rw [hquality, htemp]
  split_ifs
  · exact quiet_rel h
  · exact raiseAlarm_rel hfault ts_ms _ _
  · exact processSoc_rel hcfg hfault hpq alarm command command_id ts_ms
  · exact processSoc_rel hcfg hsnap hpq alarm command command_id ts_ms

/-- The quality rule marks the same points. -/
theorem applyQualityRules_rel (hpq : Telemetry.Rel Reading p q) :
    Telemetry.Rel Reading (applyQualityRules (cfg.map ofRat) p) (applyQualityRules cfg q) := by
  have htemp : CDouble.lt (cfg.map ofRat).temp_high p.value = CDouble.lt cfg.temp_high q.value :=
    hpq.2.lt_limit hcfg.temp_high
  unfold applyQualityRules
  rw [hpq.isPoint, htemp]
  split_ifs
  · exact ⟨congrArg (fun e : Telemetry Unit => { e with quality := .bad }) hpq.1, hpq.2⟩
  · exact hpq

end

/-! ## The scheduler and the worker -/

section
variable {R S : V → W → Prop}

/-- The outcome of a command does not look at its number. -/
theorem tickOutcome_erase (adapter : DeviceAdapter) (k : Nat) (c : Command V) :
    (tickOutcome adapter k c).erase = tickOutcome adapter k c.erase ∧
      (tickOutcome adapter k c).target_value = c.target_value := by
  unfold tickOutcome
  dsimp only
  cases adapter.write_command with
  | none => exact ⟨rfl, rfl⟩
  | some write_command =>
    dsimp only
    split_ifs <;> exact ⟨rfl, rfl⟩

theorem tickOutcome_rel (adapter : DeviceAdapter) (k : Nat) {c : Command V} {d : Command W}
    (h : Command.Rel S c d) :
    Command.Rel S (tickOutcome adapter k c) (tickOutcome adapter k d) := by
  obtain ⟨hc, hcv⟩ := tickOutcome_erase adapter k c
  obtain ⟨hd, hdv⟩ := tickOutcome_erase adapter k d
  refine ⟨?_, ?_⟩
  · rw [hc, hd, h.1]
  · rw [hcv, hdv]
    exact h.2

/-- One turn of the tick keeps the workers together. -/
theorem workerTick_rel (env : StorageEnv) (adapter : DeviceAdapter) {a : Control V} {b : Control W}
    (h : Control.Rel R S a b) {c : Command V} {d : Command W} (hcd : Command.Rel S c d) :
    Control.Rel R S (workerTick env adapter a c) (workerTick env adapter b d) := by
  have hsent : Command.Rel S { c with state := .sent } { d with state := .sent } :=
    ⟨congrArg (fun e : Command Unit => { e with state := .sent }) hcd.1, hcd.2⟩
  have hlen : a.writes.length = b.writes.length := h.writes.length_eq
  refine { h with db := ?_, writes := ?_ }
  · simp only [workerTick, tickOne, hlen]
    exact storageAppendCommand_rel env h.db (tickOutcome_rel adapter _ hcd)
  · simp only [workerTick, tickOne, tickTurn_written]
    split_ifs
    · exact List.rel_append h.writes (.cons hsent .nil)
    · exact List.rel_append h.writes .nil

theorem runTick_rel (env : StorageEnv) {a : Control V} {b : Control W} (h : Control.Rel R S a b)
    (adapter : DeviceAdapter) {cs : List (Command V)} {ds : List (Command W)}
    (hcs : List.Forall₂ (Command.Rel S) cs ds) :
    Control.Rel R S (runTick env a (some (adapter, cs))) (runTick env b (some (adapter, ds))) := by
  induction hcs generalizing a b with
  | nil => exact h
  | cons hcd _ ih => exact ih (workerTick_rel env adapter h hcd)

theorem commandSchedulerSubmit_rel {a : CommandScheduler V} {b : CommandScheduler W}
    (h : CommandScheduler.Rel S a b) {c : Command V} {d : Command W} (hcd : Command.Rel S c d) :
    Option.Rel (CommandScheduler.Rel S) (commandSchedulerSubmit a c)
      (commandSchedulerSubmit b d) := by
  have hid : c.command_id = d.command_id := congrArg Command.command_id hcd.1
  have hlen : a.queue.length = b.queue.length := h.queue.length_eq
  unfold commandSchedulerSubmit commandSchedulerSubmitCall
  by_cases hfull : commandQueueMax ≤ b.queue.length
  · rw [dif_pos hfull, dif_pos (hlen ▸ hfull)]
    exact .none
  · rw [dif_neg hfull, dif_neg (hlen ▸ hfull)]
    refine .some ⟨List.rel_append h.queue (.cons ⟨?_, hcd.2⟩ .nil), ?_⟩
    · rw [h.next_command_id, hid]
      exact congrArg (fun e : Command Unit =>
        { e with
          command_id := (assignId b.next_command_id d.command_id).1
          state := .pending }) hcd.1
    · dsimp only
      rw [h.next_command_id, hid]

theorem takePending_rel {a : CommandScheduler V} {b : CommandScheduler W}
    (h : CommandScheduler.Rel S a b) :
    List.Forall₂ (Command.Rel S) a.takePending.1 b.takePending.1 ∧
      CommandScheduler.Rel S a.takePending.2 b.takePending.2 := by
  refine ⟨List.rel_filter ?_ h.queue, ⟨.nil, h.next_command_id⟩⟩
  intro c d hcd
  have hstate : c.state = d.state := congrArg Command.state hcd.1
  dsimp only
  rw [hstate]

theorem workerAlarm_rel (env : StorageEnv) {a : Control V} {b : Control W}
    (h : Control.Rel R S a b) {r : ProcessResult V} {s : ProcessResult W} (hret : r.ret = s.ret)
    (halarm : r.alarm = s.alarm) :
    Control.Rel R S (workerAlarm env a r) (workerAlarm env b s) := by
  unfold workerAlarm
  rw [hret, halarm]
  cases s.alarm with
  | none => exact h
  | some alarm =>
    dsimp only
    split_ifs
    · exact { h with
        db := storageAppendAlarm_rel env h.db alarm
        alarmed := congrArg (· ++ [alarm]) h.alarmed }
    · exact h

/-- Submitting a command, and the tick behind it. -/
theorem runSubmit_rel (env : StorageEnv) (reg : AdapterRegistry) {a : Control V} {b : Control W}
    (h : Control.Rel R S a b) {r : ProcessResult V} {s : ProcessResult W} (hret : r.ret = s.ret)
    (hcommand : Option.Rel (Command.Rel S) r.command s.command) :
    Control.Rel R S (runSubmit env reg a r) (runSubmit env reg b s) := by
  unfold runSubmit workerSubmit
  generalize r.command = c, s.command = d at hcommand
  cases hcommand with
  | none => exact h
  | @some c d hcd =>
    have hpoint : c.point_id = d.point_id := congrArg Command.point_id hcd.1
    have hsubmit := commandSchedulerSubmit_rel h.scheduler hcd
    dsimp only
    rw [hret, hpoint]
    split_ifs
    case neg => exact h
    generalize commandSchedulerSubmit a.scheduler c = a', commandSchedulerSubmit b.scheduler d = b'
      at hsubmit
    cases hsubmit with
    | none => exact h
    | @some a' b' hab =>
      have hsubmitted := List.rel_append h.submitted (.cons hcd .nil)
      dsimp only
      cases findModbusAdapter reg with
      | none => exact { h with scheduler := hab, submitted := hsubmitted }
      | some adapter =>
        obtain ⟨hpending, htaken⟩ := takePending_rel hab
        refine runTick_rel env ?_ adapter hpending
        exact { h with scheduler := htaken, submitted := hsubmitted }

end

section
variable {cfg : GatewayConfig ℚ} (hcfg : WholeLimits cfg) (env : StorageEnv)
  (reg : AdapterRegistry) {a : Control Binary64} {b : Control ℚ}
  {p : Telemetry Binary64} {q : Telemetry ℚ}
include hcfg

/-- **A turn of the worker keeps the two together.** -/
theorem workerControl_rel (h : Control.Rel Reading Setpoint a b)
    (hpq : Telemetry.Rel Reading p q) :
    Control.Rel Reading Setpoint (workerControl env (cfg.map ofRat) reg a p)
      (workerControl env cfg reg b q) := by
  have hpoint := applyQualityRules_rel hcfg hpq
  have hts : (applyQualityRules (cfg.map ofRat) p).ts_ms = (applyQualityRules cfg q).ts_ms :=
    congrArg Telemetry.ts_ms hpoint.1
  have hdb := storageInsertTelemetry_rel env h.db hpoint
  have hcall := stateEngineProcessTelemetry_rel hcfg h.engine hpoint true true
    b.scheduler.next_command_id (applyQualityRules cfg q).ts_ms
  unfold workerControl runEngine workerInsert workerEngine runAlarm
  dsimp only
  rw [h.scheduler.next_command_id, hts]
  refine runSubmit_rel env reg (workerAlarm_rel env ?_ hcall.ret hcall.alarm) hcall.ret
    hcall.command
  exact { h with engine := hcall.engine, db := hdb }

end

/-! ## The polls -/

/-- A multiple of `0.1` or `0.2` that a register or a counter can hold. -/
theorem scaled_close {d n : ℕ} {literal : ℚ} (hd : IsPart d (ofRat literal))
    (hliteral : literal = 1 / d) (hn : n < 2 ^ 16) :
    Close (2 ^ (-36 : ℤ)) (scaled n literal) (scaled n literal : ℚ) := by
  have hexact : (scaled n literal : ℚ) = n / d := by
    change (n : ℚ) * literal = n / d
    rw [hliteral, mul_one_div]
  rw [hexact]
  exact hd.close_mul hn

theorem reading_of_close {ε : ℚ} {x : Binary64} {q : ℚ} (h : Close ε x q)
    (hε : ε ≤ 2 ^ (-35 : ℤ)) (hq : 0 ≤ q) (hlt : q < 2 ^ 16) : Reading x q :=
  ⟨⟨⟨h.finite, h.near.trans hε, h.whole, h.tenths⟩, h.sign⟩, hq, hlt⟩

/-- A register. -/
theorem tenth_reading (reg : UInt16) :
    Reading (scaled reg.toNat (1 / 10)) (scaled reg.toNat (1 / 10)) := by
  have hn := reg.toNat_lt
  have hreg : (reg.toNat : ℚ) < 2 ^ 16 := by exact_mod_cast hn
  have hnonneg : (0 : ℚ) ≤ reg.toNat := Nat.cast_nonneg _
  have hexact : (scaled reg.toNat (1 / 10) : ℚ) = reg.toNat * (1 / 10) := rfl
  refine reading_of_close (scaled_close isPart_tenth (by norm_num) hn) (by norm_num) ?_ ?_ <;>
    rw [hexact] <;> linarith

/-- A whole number with something behind it. -/
theorem lit_add_reading {k : ℕ} (hk : k < 2 ^ 16) {x : Binary64} {q : ℚ}
    (h : Near (2 ^ (-36 : ℤ)) x q) (hlow : 0 < k + q) (hhigh : k + q < 2 ^ 16) :
    Reading (Binary64.add (ofRat k) x) (k + q) := by
  have hwhole : Near 0 (ofRat k) ((k : ℤ) : ℚ) := by
    rw [Int.cast_natCast]
    exact (close_natCast (by omega)).toNear
  have hclose := hwhole.add_whole h (by norm_num)
    (by rw [Int.cast_natCast, abs_of_pos hlow]; exact hhigh)
    (by rw [Int.cast_natCast]; exact hlow.ne')
  rw [Int.cast_natCast] at hclose
  exact reading_of_close hclose (by norm_num) hlow.le hhigh

/-! The three values of a simulated poll. -/

theorem simulatedSoc_reading {n : ℕ} (hn : n < 30) :
    Reading (CDouble.sub (CDouble.lit 80) (scaled n (2 / 10)))
      (CDouble.sub (CDouble.lit 80) (scaled n (2 / 10))) := by
  have hn30 : (n : ℚ) < 30 := by exact_mod_cast hn
  have hn0 : (0 : ℚ) ≤ n := Nat.cast_nonneg n
  have hfifth := scaled_close (n := n) isPart_fifth (by norm_num) (by omega)
  have hq : (scaled n (2 / 10) : ℚ) = n * (2 / 10) := rfl
  have hexact : (CDouble.sub (CDouble.lit 80) (scaled n (2 / 10)) : ℚ) =
      (80 : ℕ) + -scaled n (2 / 10) := sub_eq_add_neg _ _
  rw [hexact]
  refine lit_add_reading (by norm_num) hfifth.toNear.neg ?_ ?_ <;> rw [hq] <;> norm_num <;>
    linarith

theorem simulatedTemp_reading {n : ℕ} (hn : n < 20) :
    Reading (CDoubleArith.add (CDouble.lit 28) (scaled n (2 / 10)))
      (CDoubleArith.add (CDouble.lit 28) (scaled n (2 / 10))) := by
  have hn20 : (n : ℚ) < 20 := by exact_mod_cast hn
  have hn0 : (0 : ℚ) ≤ n := Nat.cast_nonneg n
  have hfifth := scaled_close (n := n) isPart_fifth (by norm_num) (by omega)
  have hq : (scaled n (2 / 10) : ℚ) = n * (2 / 10) := rfl
  have hexact : (CDoubleArith.add (CDouble.lit 28) (scaled n (2 / 10)) : ℚ) =
      (28 : ℕ) + scaled n (2 / 10) := rfl
  rw [hexact]
  refine lit_add_reading (by norm_num) hfifth.toNear ?_ ?_ <;> rw [hq] <;> norm_num <;>
    linarith

theorem simulatedPower_reading {n : ℕ} (hn : n < 80) :
    Reading (CDoubleArith.add (CDouble.lit 90) (CDoubleArith.ofUnsigned n))
      (CDoubleArith.add (CDouble.lit 90) (CDoubleArith.ofUnsigned n)) := by
  have hn80 : (n : ℚ) < 80 := by exact_mod_cast hn
  have hn0 : (0 : ℚ) ≤ n := Nat.cast_nonneg n
  have hclose := close_natCast (n := n) (by omega)
  have hnear : Near (2 ^ (-36 : ℤ)) (ofRat n) n :=
    ⟨hclose.finite, hclose.near.trans (by norm_num), hclose.whole, hclose.tenths⟩
  have hexact : (CDoubleArith.add (CDouble.lit 90) (CDoubleArith.ofUnsigned n) : ℚ) =
      (90 : ℕ) + (n : ℚ) := rfl
  rw [hexact]
  refine lit_add_reading (by norm_num) hnear ?_ ?_ <;> norm_num <;> linarith

/-- Two points made alike, of values that are related. -/
theorem telemetryInit_rel {R : V → W → Prop} {v : V} {w : W} (h : R v w) (ts_ms : UInt64)
    (device_id point_id unit : Bytes) (source_id : UInt16) :
    Telemetry.Rel R (telemetryInit ts_ms device_id point_id v unit source_id)
      (telemetryInit ts_ms device_id point_id w unit source_id) := ⟨rfl, h⟩

theorem length_ingressPoints [CDouble V] : ¬ (ingressPoints : List (Telemetry V)).length < 3 := by
  rw [ingressPoints, List.length_replicate]
  decide

/-- What a poll returns on both sides: the same count and the same state, and related points. -/
structure PollRel {σ : Type} (r : Int × List (Telemetry Binary64) × σ)
    (r' : Int × List (Telemetry ℚ) × σ) : Prop where
  n : r.1 = r'.1
  points : List.Forall₂ (Telemetry.Rel Reading) (r.2.1.take r.1.toNat) (r'.2.1.take r'.1.toNat)
  state : r.2.2 = r'.2.2

theorem modbusPollSimulate_rel (now : UInt64) (seq : UInt32) :
    PollRel (modbusPollSimulate now ingressPoints seq)
      (modbusPollSimulate now ingressPoints seq) := by
  have hmod : ∀ m : UInt32, 0 < m.toNat → (seq % m).toNat < m.toNat := by
    intro m hm
    rw [UInt32.toNat_mod]
    exact Nat.mod_lt _ hm
  unfold modbusPollSimulate
  rw [if_neg length_ingressPoints, if_neg length_ingressPoints]
  exact ⟨rfl, .cons (telemetryInit_rel (simulatedSoc_reading (hmod 30 (by decide))) _ _ _ _ _)
    (.cons (telemetryInit_rel (simulatedTemp_reading (hmod 20 (by decide))) _ _ _ _ _)
      (.cons (telemetryInit_rel (simulatedPower_reading (hmod 80 (by decide))) _ _ _ _ _) .nil)),
    rfl⟩

theorem modbusLibmodbusPoll_rel (cfg : GatewayConfig ℚ) (o : ModbusOutcome) (s : ModbusState) :
    PollRel
      (modbusLibmodbusPoll (fun reg => scaled reg.toNat (1 / 10)) (cfg.map ofRat) o ingressPoints s)
      (modbusLibmodbusPoll (fun reg => scaled reg.toNat (1 / 10)) cfg o ingressPoints s) := by
  have hensure : ensureContext (cfg.map ofRat) o s = ensureContext cfg o s := rfl
  unfold modbusLibmodbusPoll
  rw [if_neg length_ingressPoints, if_neg length_ingressPoints, hensure]
  obtain ⟨rc, s'⟩ := ensureContext cfg o s
  dsimp only
  by_cases hrc : rc ≠ 0
  · rw [if_pos hrc, if_pos hrc]
    exact ⟨rfl, .nil, rfl⟩
  rw [if_neg hrc, if_neg hrc]
  cases s'.g_ctx with
  | none => exact ⟨rfl, .nil, rfl⟩
  | some ctx =>
    cases o.regs with
    | none => exact ⟨rfl, .nil, rfl⟩
    | some regs =>
      dsimp only [mapRegistersToTelemetry]
      rw [if_neg length_ingressPoints, if_neg length_ingressPoints]
      exact ⟨rfl, .cons (telemetryInit_rel (tenth_reading regs.1) _ _ _ _ _)
        (.cons (telemetryInit_rel (tenth_reading regs.2.1) _ _ _ _ _)
          (.cons (telemetryInit_rel (tenth_reading regs.2.2) _ _ _ _ _) .nil)), rfl⟩

/-- **A poll delivers the same readings to both.** -/
theorem modbusRtuPoll_rel (cfg : GatewayConfig ℚ) (o : ModbusOutcome) (seq : UInt32)
    (s : ModbusState) :
    PollRel (modbusRtuPoll (cfg.map ofRat) o ingressPoints seq s)
      (modbusRtuPoll cfg o ingressPoints seq s) := by
  have hsimulate : (cfg.map ofRat).simulate = cfg.simulate := rfl
  unfold modbusRtuPoll
  rw [if_neg length_ingressPoints, if_neg length_ingressPoints, hsimulate]
  cases cfg.simulate with
  | true =>
    have h := modbusPollSimulate_rel o.now seq
    exact ⟨h.n, h.points, congrArg (·, s) h.state⟩
  | false =>
    have h := modbusLibmodbusPoll_rel cfg o s
    exact ⟨h.n, h.points, congrArg (seq, ·) h.state⟩

theorem pushed_rel {R : V → W → Prop} {ps : List (Telemetry V)} {qs : List (Telemetry W)}
    (h : List.Forall₂ (Telemetry.Rel R) ps qs) (pushed : List Bool) :
    List.Forall₂ (Telemetry.Rel R)
      ((ps.zip pushed).filterMap fun p => if p.2 then some p.1 else none)
      ((qs.zip pushed).filterMap fun p => if p.2 then some p.1 else none) := by
  induction h generalizing pushed with
  | nil => exact .nil
  | cons hpq _ ih =>
    cases pushed with
    | nil => exact .nil
    | cons ok pushed =>
      cases ok with
      | true => exact .cons hpq (ih pushed)
      | false => exact ih pushed

theorem fed_rel (cfg : GatewayConfig ℚ) (turns : List PollTurn) (seq : UInt32) (s : ModbusState) :
    List.Forall₂ (Telemetry.Rel Reading) (fed (cfg.map ofRat) turns seq s)
      (fed cfg turns seq s) := by
  induction turns generalizing seq s with
  | nil => exact .nil
  | cons turn turns ih =>
    have hpoll := modbusRtuPoll_rel cfg turn.o seq s
    have hseq := congrArg Prod.fst hpoll.state
    have hstate := congrArg Prod.snd hpoll.state
    unfold fed
    dsimp only at hseq hstate ⊢
    rw [hseq, hstate]
    exact List.rel_append (pushed_rel hpoll.points turn.pushed) (ih _ _)

/-! ## The whole run -/

theorem controlInit_rel (cfg : GatewayConfig ℚ) :
    Control.Rel Reading Setpoint (controlInit (storageOpen (cfg.map ofRat)))
      (controlInit (storageOpen cfg)) where
  engine := ⟨rfl, reading_natCast (n := 80) (by norm_num), reading_natCast (n := 0) (by norm_num),
    reading_natCast (n := 0) (by norm_num), rfl⟩
  scheduler := ⟨.nil, rfl⟩
  db := ⟨rfl, ⟨rfl, .nil⟩, rfl, ⟨rfl, .nil⟩, rfl, rfl, rfl, rfl⟩
  writes := .nil
  alarmed := rfl
  submitted := .nil

theorem foldl_workerControl_rel {cfg : GatewayConfig ℚ} (hcfg : WholeLimits cfg) (env : StorageEnv)
    (reg : AdapterRegistry) {ps : List (Telemetry Binary64)} {qs : List (Telemetry ℚ)}
    (hps : List.Forall₂ (Telemetry.Rel Reading) ps qs) {a : Control Binary64} {b : Control ℚ}
    (h : Control.Rel Reading Setpoint a b) :
    Control.Rel Reading Setpoint (ps.foldl (workerControl env (cfg.map ofRat) reg) a)
      (qs.foldl (workerControl env cfg reg) b) := by
  induction hps generalizing a b with
  | nil => exact h
  | cons hpq _ ih => exact ih (workerControl_rel hcfg env reg h hpq)

/-- The messages the worker hands to the session, in their order. -/
def workerMessages [CDouble V] (cfg : GatewayConfig V) (ps : List (Telemetry V)) : List Bytes :=
  ps.map fun p => telemetryToJson (applyQualityRules cfg p) 384

theorem workerMessages_rel {cfg : GatewayConfig ℚ} (hcfg : WholeLimits cfg)
    {ps : List (Telemetry Binary64)} {qs : List (Telemetry ℚ)}
    (hps : List.Forall₂ (Telemetry.Rel Reading) ps qs) :
    workerMessages (cfg.map ofRat) ps = workerMessages cfg qs := by
  unfold workerMessages
  induction hps with
  | nil => rfl
  | cons hpq _ ih =>
    rw [List.map_cons, List.map_cons, ih, telemetryToJson_rel (applyQualityRules_rel hcfg hpq)]

/-- **The machine's numbers make no difference but in their last bits.** On the same polls, with
    whole limits, the worker on `double`s and the worker on exact numbers are in the same state,
    have raised the same alarms, written the same audit file, published the same messages, stored
    the same rows and given the same commands; the readings in the rows and in the engine are
    within `2^(-35)` of each other, the setpoints within `2^(-34)`, and whole ones are equal. -/
theorem machine_numbers_agree (cfg : GatewayConfig ℚ) (hcfg : WholeLimits cfg) (env : StorageEnv)
    (reg : AdapterRegistry) (turns : List PollTurn) :
    Control.Rel Reading Setpoint
        (controlAfter env (cfg.map ofRat) reg (storageOpen (cfg.map ofRat))
          (fed (cfg.map ofRat) turns 0 modbusStart))
        (controlAfter env cfg reg (storageOpen cfg) (fed cfg turns 0 modbusStart)) ∧
      workerMessages (cfg.map ofRat) (fed (cfg.map ofRat) turns 0 modbusStart) =
        workerMessages cfg (fed cfg turns 0 modbusStart) := by
  have hfed := fed_rel cfg turns 0 modbusStart
  constructor
  · exact foldl_workerControl_rel hcfg env reg hfed (controlInit_rel cfg)
  · exact workerMessages_rel hcfg hfed

/-- The default limits, on a line. -/
def lineConfig : GatewayConfig ℚ := { gatewayConfigDefaults ℚ with simulate := false }

/-- A peak of 120.4 kW, and a temperature of 55.1 C whose meter reading the ring drops. -/
def lineTurns : List PollTurn :=
  [⟨⟨true, true, some (762, 230, 1204), 5⟩, [true, true, true]⟩,
    ⟨⟨true, true, some (761, 551, 900), 6⟩, [true, true, false]⟩]

theorem machine_numbers_agree_line :
    Control.Rel Reading Setpoint
        (controlAfter ⟨fun _ => true, fun _ => true⟩ (lineConfig.map ofRat)
          [⟨.modbusRtu, some fun _ => 0⟩] (storageOpen (lineConfig.map ofRat))
          (fed (lineConfig.map ofRat) lineTurns 0 modbusStart))
        (controlAfter ⟨fun _ => true, fun _ => true⟩ lineConfig [⟨.modbusRtu, some fun _ => 0⟩]
          (storageOpen lineConfig) (fed lineConfig lineTurns 0 modbusStart)) ∧
      workerMessages (lineConfig.map ofRat) (fed (lineConfig.map ofRat) lineTurns 0 modbusStart) =
        workerMessages lineConfig (fed lineConfig lineTurns 0 modbusStart) :=
  machine_numbers_agree lineConfig ⟨⟨55, by norm_num, rfl⟩, ⟨20, by norm_num, rfl⟩,
    ⟨100, by norm_num, rfl⟩, ⟨30, by norm_num, rfl⟩⟩ _ _ _

/-- A limit that is not whole: `3 * 0.1` is above `0.3` in the machine and nowhere else. -/
example : CDouble.lt (ofRat (3 / 10)) (scaled 3 (1 / 10) : Binary64) = true ∧
    CDouble.lt (3 / 10 : ℚ) (scaled 3 (1 / 10)) = false := by
  decide +kernel

end EdgeFlow
