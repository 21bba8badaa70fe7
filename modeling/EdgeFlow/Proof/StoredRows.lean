import EdgeFlow.Egress.MqttSession

/-!
# What the store keeps, and what a replay reads back

Every statement on the store either inserts a fresh telemetry row, flags one, or leaves the
table alone; so a row once in is in for good, with all its columns but the flag
(`Kept`). From this the replay law is a fact about one row: the columns go in as
`telemetryColumns` and come out as `fetchRow`, and **the round trip is the identity on every
field of the payload but the quality**.
-/

set_option autoImplicit false

namespace EdgeFlow

open Lib

variable {V : Type}

/-- A row without its upload flag. -/
def TelemetryRow.forget (r : TelemetryRow V) : TelemetryRow V := { r with uploaded := false }

namespace Proof

/-- Every row is still there, nothing but its flag has changed, and a set flag stays set. -/
def Kept (t t' : Table (TelemetryRow V)) : Prop :=
  ∀ id r, (id, r) ∈ t.rows →
    ∃ r', (id, r') ∈ t'.rows ∧ r'.forget = r.forget ∧ (r.uploaded = true → r'.uploaded = true)

theorem Kept.refl (t : Table (TelemetryRow V)) : Kept t t :=
  fun _ r h => ⟨r, h, rfl, fun h => h⟩

theorem Kept.trans {a b c : Table (TelemetryRow V)} (h₁ : Kept a b) (h₂ : Kept b c) : Kept a c := by
  intro id r hr
  obtain ⟨r₁, hm₁, he₁, hu₁⟩ := h₁ id r hr
  obtain ⟨r₂, hm₂, he₂, hu₂⟩ := h₂ id r₁ hm₁
  exact ⟨r₂, hm₂, he₂.trans he₁, fun h => hu₂ (hu₁ h)⟩

theorem Kept.insert (t : Table (TelemetryRow V)) (r : TelemetryRow V) : Kept t (t.insert r) :=
  fun _ r' h => ⟨r', Table.mem_insert.mpr (Or.inl h), rfl, fun h => h⟩

theorem Kept.mark (t : Table (TelemetryRow V)) (row_id : Nat) :
    Kept t (t.update row_id TelemetryRow.setUploaded) := by
  intro id r hr
  by_cases h : id = row_id
  · exact ⟨r.setUploaded, Table.mem_update.mpr ⟨(id, r), hr, by simp [Table.updateRow, h]⟩, rfl,
      fun _ => rfl⟩
  · exact ⟨r, Table.mem_update.mpr ⟨(id, r), hr, by simp [Table.updateRow, h]⟩, rfl, fun h => h⟩

/-! ## The statements -/

section
variable (env : StorageEnv) (db : Storage V)

/-! The JSONL file is beside the tables. -/

@[simp] theorem appendJsonlLine_use_sqlite (line : Bytes) :
    (appendJsonlLine env db line).use_sqlite = db.use_sqlite := rfl

@[simp] theorem appendJsonlLine_telemetry (line : Bytes) :
    (appendJsonlLine env db line).telemetry = db.telemetry := rfl

@[simp] theorem appendJsonlLine_inserts (line : Bytes) :
    (appendJsonlLine env db line).inserts = db.inserts := rfl

/-- An insert adds the point's columns under the next id, which the connection then remembers,
    or leaves the table alone. -/
theorem storageInsertTelemetry_cases [CDouble V] (p : Telemetry V) :
    ((storageInsertTelemetry env db p).1 = .done ∧ db.use_sqlite = true ∧
      (storageInsertTelemetry env db p).2.telemetry = db.telemetry.insert (telemetryColumns p) ∧
      (storageInsertTelemetry env db p).2.last_insert_rowid = db.telemetry.seq + 1) ∨
    ((storageInsertTelemetry env db p).1 = (if db.use_sqlite then .failed else .disabled) ∧
      (storageInsertTelemetry env db p).2.telemetry = db.telemetry) := by
  cases hs : db.use_sqlite with
  | false =>
    refine Or.inr ?_
    simp [storageInsertTelemetry, jsonlAppendTelemetry, hs]
  | true =>
    simp only [storageInsertTelemetry, jsonlAppendTelemetry, appendJsonlLine_use_sqlite,
      appendJsonlLine_telemetry, appendJsonlLine_inserts, hs, Bool.not_true, Bool.false_eq_true,
      if_false, if_true]
    split_ifs
    · exact Or.inl ⟨rfl, trivial, rfl, rfl⟩
    · exact Or.inr ⟨rfl, rfl⟩

@[simp] theorem storageAppendAlarm_telemetry (a : AlarmEvent) :
    (storageAppendAlarm env db a).telemetry = db.telemetry := by
  unfold storageAppendAlarm
  dsimp only
  split_ifs <;> rfl

@[simp] theorem storageAppendCommand_telemetry (c : Command V) :
    (storageAppendCommand env db c).telemetry = db.telemetry := by
  unfold storageAppendCommand
  dsimp only
  split_ifs <;> rfl

/-! Whether there is a database at all is settled when it is opened. -/

@[simp] theorem storageInsertTelemetry_use_sqlite [CDouble V] (p : Telemetry V) :
    (storageInsertTelemetry env db p).2.use_sqlite = db.use_sqlite := by
  simp only [storageInsertTelemetry, apply_ite Prod.snd, apply_ite Storage.use_sqlite]
  split_ifs <;> rfl

@[simp] theorem storageAppendAlarm_use_sqlite (a : AlarmEvent) :
    (storageAppendAlarm env db a).use_sqlite = db.use_sqlite := by
  unfold storageAppendAlarm
  dsimp only
  split_ifs <;> rfl

@[simp] theorem storageAppendCommand_use_sqlite (c : Command V) :
    (storageAppendCommand env db c).use_sqlite = db.use_sqlite := by
  unfold storageAppendCommand
  dsimp only
  split_ifs <;> rfl

/-- A mark either reports success and sets the flag, or changes nothing. -/
theorem storageMarkTelemetryUploaded_cases (row_id : Nat) (ok : Bool) :
    storageMarkTelemetryUploaded db row_id ok = (false, db) ∨
    (0 < row_id ∧ db.use_sqlite = true ∧ ok = true ∧ storageMarkTelemetryUploaded db row_id ok =
      (true, { db with telemetry := db.telemetry.update row_id TelemetryRow.setUploaded })) := by
  unfold storageMarkTelemetryUploaded
  split_ifs with h hok
  · exact Or.inl rfl
  · simp only [Bool.or_eq_true, decide_eq_true_eq, Bool.not_eq_true', not_or] at h
    exact Or.inr ⟨Nat.pos_of_ne_zero h.1, by simpa using h.2, hok, rfl⟩
  · exact Or.inl rfl

theorem kept_insertTelemetry [CDouble V] (p : Telemetry V) :
    Kept db.telemetry (storageInsertTelemetry env db p).2.telemetry := by
  rcases storageInsertTelemetry_cases env db p with ⟨-, -, h, -⟩ | ⟨-, h⟩
  · rw [h]
    exact Kept.insert _ _
  · rw [h]
    exact Kept.refl _

theorem kept_mark (row_id : Nat) (ok : Bool) :
    Kept db.telemetry (storageMarkTelemetryUploaded db row_id ok).2.telemetry := by
  rcases storageMarkTelemetryUploaded_cases db row_id ok with h | ⟨-, -, -, h⟩
  · rw [h]
    exact Kept.refl _
  · rw [h]
    exact Kept.mark _ _

/-- **No statement removes a row or takes back a flag.** -/
theorem kept_storageOp [CDouble V] (op : StorageOp V) :
    Kept db.telemetry (storageOp env db op).telemetry := by
  cases op with
  | appendTelemetry p => exact kept_insertTelemetry env db p
  | appendAlarm a =>
    rw [storageOp, storageAppendAlarm_telemetry]
    exact Kept.refl _
  | appendCommand c =>
    rw [storageOp, storageAppendCommand_telemetry]
    exact Kept.refl _
  | markUploaded row_id ok => exact kept_mark db row_id ok

theorem kept_storageOps [CDouble V] (ops : List (StorageOp V)) :
    Kept db.telemetry (ops.foldl (storageOp env) db).telemetry := by
  induction ops generalizing db with
  | nil => exact Kept.refl _
  | cons op ops ih => exact (kept_storageOp env db op).trans (ih _)

end

/-! ## Reading back -/

/-- A fetched row is a pending row of the table. -/
theorem mem_fetch {db : Storage V} {max_rows : Nat} {stepped : Option Nat}
    {rows : List (StorageTelemetryRow V)} {r : StorageTelemetryRow V}
    (hf : storageFetchPendingTelemetry db max_rows stepped = some rows) (hr : r ∈ rows) :
    ∃ row, (r.row_id, row) ∈ db.telemetry.rows ∧ row.uploaded = false ∧
      r = fetchRow (r.row_id, row) := by
  unfold storageFetchPendingTelemetry at hf
  split at hf
  · cases hf
    simp at hr
  · obtain ⟨k, -, rfl⟩ := Option.map_eq_some_iff.mp hf
    obtain ⟨⟨id, row⟩, hrow, rfl⟩ := List.mem_map.mp hr
    have hp := List.mem_filter.mp (List.mem_of_mem_take (List.mem_of_mem_take hrow))
    exact ⟨row, hp.1, by simpa using hp.2, rfl⟩

/-- The flag is not part of what is read back. -/
theorem fetchRow_congr {id : Nat} {r r' : TelemetryRow V} (h : r.forget = r'.forget) :
    fetchRow (id, r) = fetchRow (id, r') := by
  have h₁ := congrArg (fun r => fetchRow (id, r)) h
  exact h₁

/-- A `SELECT` that succeeds delivers the first rows of the backlog. -/
theorem fetch_first {db : Storage V} (hsql : db.use_sqlite = true) {b k : Nat} (hb : 0 < b)
    (hk : min b (pendingRows db.telemetry).length ≤ k) :
    storageFetchPendingTelemetry db b (some k) =
      some (((pendingRows db.telemetry).take b).map fetchRow) := by
  unfold storageFetchPendingTelemetry
  simp only [hsql, Nat.ne_of_gt hb, decide_false, Bool.not_true, Bool.or_self,
    Bool.false_eq_true, if_false, Option.map_some]
  rw [List.take_of_length_le (l := (pendingRows db.telemetry).take b)
    (by rw [List.length_take]; exact hk)]

/-- **The round trip of a point through the table**: everything but the quality and the source
    comes back. -/
theorem fetchRow_telemetryColumns (id : Nat) (p : Telemetry V) :
    fetchRow (id, telemetryColumns p) = ⟨id, { p with quality := .good, source_id := 0 }⟩ := by
  simp [fetchRow, telemetryColumns, telemetryInit, CStr.copy_bytes]

theorem telemetryToJson_good_eq_iff [CDouble V] (p : Telemetry V) (out_len : Nat) :
    telemetryToJson { p with quality := .good, source_id := 0 } out_len =
        telemetryToJson p out_len ↔
      p.quality = .good ∨ out_len - 1 ≤ (telemetryJsonHead p).length := by
  have hhead : telemetryJsonHead { p with quality := .good, source_id := 0 } =
      telemetryJsonHead p := rfl
  unfold telemetryToJson
  rw [hhead]
  -- the three quality texts differ in their first byte
  cases hq : p.quality with
  | good => simp
  | bad =>
    refine (snprintf_append_eq_iff (x := 0x67) (y := 0x62) (by decide)).trans ?_
    simp
  | uncertain =>
    refine (snprintf_append_eq_iff (x := 0x67) (y := 0x75) (by decide)).trans ?_
    simp

/-- **When a replayed point renders as the live one did.** A point is appended, any statements
    follow, and a fetch returns its row: the text built from the fetched point is the text built
    from the original exactly if the original was GOOD, or if the buffer ends before the
    quality. -/
theorem replay_text_eq_iff [CDouble V] (env : StorageEnv) (db db₁ : Storage V) (p : Telemetry V)
    (id : Nat) (hsql : db.use_sqlite = true)
    (happ : storageAppendTelemetry env db p = ((true, id), db₁))
    (ops : List (StorageOp V)) (max_rows : Nat) (stepped : Option Nat)
    (rows : List (StorageTelemetryRow V))
    (hf : storageFetchPendingTelemetry (ops.foldl (storageOp env) db₁) max_rows stepped = some rows)
    (r : StorageTelemetryRow V) (hr : r ∈ rows) (hid : r.row_id = id) (out_len : Nat) :
    telemetryToJson r.point out_len = telemetryToJson p out_len ↔
      p.quality = .good ∨ out_len - 1 ≤ (telemetryJsonHead p).length := by
  -- the append put the columns under `id`
  have hrow : (id, telemetryColumns p) ∈ db₁.telemetry.rows := by
    have hres : ((storageAppendResult (storageInsertTelemetry env db p).2
        (storageInsertTelemetry env db p).1), (storageInsertTelemetry env db p).2) =
        ((true, id), db₁) := happ
    obtain ⟨hret, rfl⟩ := Prod.mk.inj hres
    rcases storageInsertTelemetry_cases env db p with ⟨hd, -, ht, hl⟩ | ⟨hd, -⟩
    · rw [hd, storageAppendResult, hl] at hret
      obtain ⟨-, rfl⟩ := Prod.mk.inj hret
      rw [ht]
      exact Table.mem_insert.mpr (Or.inr rfl)
    · rw [hd, hsql] at hret
      simp [storageAppendResult] at hret
  -- and nothing that follows takes them away
  obtain ⟨row, hm, he, -⟩ := kept_storageOps env db₁ ops id _ hrow
  obtain ⟨row', hm', -, hr'⟩ := mem_fetch hf hr
  rw [hid] at hm' hr'
  have hsame : row' = row := congrArg Prod.snd (Table.eq_of_id_eq hm' hm rfl)
  rw [hr', hsame, fetchRow_congr he, fetchRow_telemetryColumns]
  exact telemetryToJson_good_eq_iff p out_len

/-- A hot cell, appended to an empty database of an undisturbed SQLite. -/
def hotReading (quality : TelemetryQuality) : Telemetry ℚ :=
  { telemetryInit 1000 (ascii "bms_001") maxCellTempC 60 (ascii "C") 1 with quality := quality }

def calmEnv : StorageEnv := ⟨fun _ => true, fun _ => true⟩

def storedReading (quality : TelemetryQuality) : Storage ℚ :=
  (storageAppendTelemetry calmEnv (storageOpen (gatewayConfigDefaults ℚ)) (hotReading quality)).2

theorem replay_text_eq_iff_good :
    telemetryToJson (fetchRow (1, telemetryColumns (hotReading .good))).point 384 =
        telemetryToJson (hotReading .good) 384 ↔
      (hotReading .good).quality = .good ∨
        384 - 1 ≤ (telemetryJsonHead (hotReading .good)).length :=
  replay_text_eq_iff calmEnv (storageOpen (gatewayConfigDefaults ℚ)) (storedReading .good)
    (hotReading .good) 1 rfl rfl [] 50 (some 1)
    [fetchRow (1, telemetryColumns (hotReading .good))] rfl _ (List.mem_singleton.mpr rfl) rfl 384

/-- The stored reading is BAD, and its replay says it is good. -/
theorem replay_text_differs :
    storageFetchPendingTelemetry (storedReading .bad) 50 (some 1) =
        some [fetchRow (1, telemetryColumns (hotReading .bad))] ∧
      telemetryToJson (fetchRow (1, telemetryColumns (hotReading .bad))).point 384 ≠
        telemetryToJson (hotReading .bad) 384 := by
  refine ⟨rfl, ?_⟩
  decide +kernel

end Proof
end EdgeFlow
