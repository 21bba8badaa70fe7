import EdgeFlow.Egress.Replay
import EdgeFlow.Proof.AtMostOnce

/-!
# One replay

One call of `mqtt_session_replay_pending` is a list of *turns*, one for each row it tried: was
the row published, and was it then marked. The loop decides only how far the turns go
(`ReplayTurns`): in row order, past a mark that failed, and no further than a publish that failed.
Everything the call leaves behind is a function of the turns (`Played`): the messages sent, the
flags set, the counter, the value returned.

The session has seen this call before: `replayCall_session` says that what a replay does to it is
what the call `replayPending` of its own runs does.
-/

set_option autoImplicit false

namespace EdgeFlow

open Lib

variable {V : Type}

/-- One row of a replay. A row that was not published is not marked either. -/
structure ReplayTurn (V : Type) where
  row : Nat × TelemetryRow V
  published : Bool
  marked : Bool

/-- What a turn leaves in the log. -/
def ReplayTurn.steps (t : ReplayTurn V) : List (ReplayStep V) :=
  .published (fetchRow t.row).point t.published ::
    if t.published then [.marked t.row.1 t.marked] else []

/-- The ids of the rows that were published and marked. -/
def flips (ts : List (ReplayTurn V)) : List Nat :=
  (ts.filter fun t => t.published && t.marked).map fun t => t.row.1

/-- The messages of the rows that were published. -/
def turnMessages [CDouble V] (cfg : GatewayConfig V) (ts : List (ReplayTurn V)) : List Sent :=
  (ts.filter ReplayTurn.published).map fun t => Proof.uploadMessage cfg (fetchRow t.row).point

/-- The turns made on `rows`: a prefix of them, up to the first failed publish. -/
structure ReplayTurns (rows : List (Nat × TelemetryRow V)) (ts : List (ReplayTurn V)) : Prop where
  tried : ts.map ReplayTurn.row <+: rows
  stops : ∀ t ∈ ts.dropLast, t.published = true
  whole : ts.map ReplayTurn.row = rows ∨ ∃ t ∈ ts.getLast?, t.published = false

/-- What one call that returned `replayed` has done, in terms of its turns on `rows`. -/
structure ReplayOutcome [CDouble V] (s s' : ReplayState V) (rows : List (Nat × TelemetryRow V))
    (replayed : Nat) (connected : Bool) (ts : List (ReplayTurn V)) : Prop where
  /-- The rows tried and the rows published are prefixes of `rows`, in ascending id order. -/
  tried : ts.map ReplayTurn.row <+: rows
  published : (ts.filter ReplayTurn.published).map ReplayTurn.row <+: rows
  ascending : (ts.map fun t => t.row.1).Pairwise (· < ·)
  /-- Only the last publish can have failed, and nothing else cuts the prefix short. -/
  stops : ∀ t ∈ ts.dropLast, t.published = true
  whole : ts.map ReplayTurn.row = rows ∨ (connected = false ∧ ts = []) ∨
    ∃ t ∈ ts.getLast?, t.published = false
  /-- The turns are what happened, and their messages what was sent. -/
  log : s'.log = s.log ++ .connected connected :: ts.flatMap ReplayTurn.steps
  messages : s'.net.messages = s.net.messages ++ turnMessages s.net.cfg ts
  /-- The rows published and marked were pending and are so no more; nothing else changed. -/
  pending : ∀ p ∈ s.db.telemetry.rows, p.1 ∈ flips ts → p.2.uploaded = false
  rows_eq : s'.db.telemetry.rows = s.db.telemetry.rows.map fun p =>
    if p.1 ∈ flips ts then (p.1, p.2.setUploaded) else p
  seq : s'.db.telemetry.seq = s.db.telemetry.seq
  store : s'.db = { s.db with telemetry := s'.db.telemetry }
  /-- The value, the counter and the backlog agree. -/
  value : replayed = (flips ts).length
  total : (s'.mqtt_replay_total - s.mqtt_replay_total).toNat = replayed
  backlog : (pendingRows s'.db.telemetry).length + replayed = (pendingRows s.db.telemetry).length

/-- The batch a configuration asks for: `50` for the setting `0`, and never more than `64`. -/
def batchOf (cfg : GatewayConfig V) : Nat :=
  if cfg.mqtt_replay_batch = 0 then 50 else min cfg.mqtt_replay_batch.toNat 64

namespace Proof

/-! ## Turns -/

section
variable {rows : List (Nat × TelemetryRow V)} {ts : List (ReplayTurn V)} {r : Nat × TelemetryRow V}

theorem replayTurns_nil : ReplayTurns ([] : List (Nat × TelemetryRow V)) [] :=
  ⟨List.prefix_rfl, fun t ht => (by cases ht), Or.inl rfl⟩

/-- A failed publish is the last turn. -/
theorem replayTurns_stop : ReplayTurns (r :: rows) [⟨r, false, false⟩] :=
  ⟨⟨rows, rfl⟩, fun t ht => (by cases ht), Or.inr ⟨_, rfl, rfl⟩⟩

/-- A published row is followed by the turns on the rest. -/
theorem replayTurns_cons (h : ReplayTurns rows ts) (marked : Bool) :
    ReplayTurns (r :: rows) (⟨r, true, marked⟩ :: ts) := by
  refine ⟨?_, fun t ht => ?_, ?_⟩
  · rw [List.map_cons]
    exact (List.prefix_cons_inj _).mpr h.tried
  · cases ts with
    | nil => cases ht
    | cons t' ts =>
      rw [List.dropLast_cons_cons] at ht
      rcases List.mem_cons.mp ht with rfl | ht
      · rfl
      · exact h.stops t ht
  · rcases h.whole with hall | ⟨t, ht, hno⟩
    · left
      rw [List.map_cons, hall]
    · right
      refine ⟨t, ?_, hno⟩
      cases ts with
      | nil => cases ht
      | cons t' ts =>
        rw [List.getLast?_cons_cons]
        exact ht

/-- All rows that had a turn were published, but perhaps the last. -/
theorem published_first (h : ∀ t ∈ ts.dropLast, t.published = true) :
    ts.filter ReplayTurn.published <+: ts := by
  rcases List.eq_nil_or_concat ts with rfl | ⟨init, last, rfl⟩
  · exact List.prefix_rfl
  · rw [List.concat_eq_append, List.dropLast_concat] at *
    rw [List.filter_append, List.filter_eq_self.mpr h]
    cases hlast : last.published with
    | true => simp [hlast]
    | false => simp [hlast]

theorem flips_append (us : List (ReplayTurn V)) : flips (ts ++ us) = flips ts ++ flips us := by
  unfold flips
  rw [List.filter_append, List.map_append]

theorem flips_sublist (ts : List (ReplayTurn V)) :
    List.Sublist (flips ts) ((ts.map ReplayTurn.row).map Prod.fst) := by
  rw [List.map_map]
  exact List.filter_sublist.map _

theorem turnMessages_append [CDouble V] (cfg : GatewayConfig V) (us : List (ReplayTurn V)) :
    turnMessages cfg (ts ++ us) = turnMessages cfg ts ++ turnMessages cfg us := by
  unfold turnMessages
  rw [List.filter_append, List.map_append]

end

/-! ## Setting the flags -/

/-- The store after the marks of `ids`. -/
def flag (db : Storage V) (ids : List Nat) : Storage V :=
  ids.foldl (fun db id =>
    { db with telemetry := db.telemetry.update id TelemetryRow.setUploaded }) db

/-- A row after the marks of `ids`. -/
def flagRow (ids : List Nat) (p : Nat × TelemetryRow V) : Nat × TelemetryRow V :=
  if p.1 ∈ ids then (p.1, p.2.setUploaded) else p

theorem flagRow_cons (id : Nat) (ids : List Nat) (p : Nat × TelemetryRow V) :
    flagRow ids (Table.updateRow id TelemetryRow.setUploaded p) = flagRow (id :: ids) p := by
  unfold flagRow
  rw [Table.updateRow_fst]
  unfold Table.updateRow
  by_cases hid : p.1 = id
  · have hmem : p.1 ∈ id :: ids := hid ▸ List.mem_cons_self
    rw [if_pos hid, if_pos hmem]
    split <;> rfl
  · rw [if_neg hid]
    simp [hid]

/-- **The marks change the flags of their rows, and nothing else in the store.** -/
theorem flag_spec : ∀ (ids : List Nat) (db : Storage V),
    flag db ids = { db with telemetry := (flag db ids).telemetry } ∧
      (flag db ids).telemetry.seq = db.telemetry.seq ∧
      (flag db ids).telemetry.rows = db.telemetry.rows.map (flagRow ids) := by
  intro ids
  induction ids with
  | nil =>
    intro db
    refine ⟨rfl, rfl, ?_⟩
    have hid : flagRow ([] : List Nat) = (id : Nat × TelemetryRow V → _) := by
      funext p
      simp [flagRow]
    rw [hid, List.map_id]
    rfl
  | cons id ids ih =>
    intro db
    obtain ⟨hrest, hseq, hrows⟩ :=
      ih { db with telemetry := db.telemetry.update id TelemetryRow.setUploaded }
    refine ⟨hrest, hseq, hrows.trans ?_⟩
    show (db.telemetry.rows.map _).map _ = _
    rw [List.map_map]
    exact List.map_congr_left fun p _ => flagRow_cons id ids p

/-- The marks take their rows off the backlog. -/
theorem pending_of_flagRow {t t' : Table (TelemetryRow V)} {ids : List Nat}
    (h : t'.rows = t.rows.map (flagRow ids)) :
    pendingRows t' = (pendingRows t).filter fun p => p.1 ∉ ids := by
  unfold pendingRows
  rw [h, List.filter_map, List.filter_filter]
  have hpred : ∀ p : Nat × TelemetryRow V, (!(flagRow ids p).2.uploaded) =
      (decide (p.1 ∉ ids) && !p.2.uploaded) := by
    intro p
    unfold flagRow
    by_cases hid : p.1 ∈ ids
    · simp [hid, TelemetryRow.setUploaded]
    · simp [hid]
  have hfilter : t.rows.filter ((fun p => !p.2.uploaded) ∘ flagRow ids) =
      t.rows.filter fun p => decide (p.1 ∉ ids) && !p.2.uploaded :=
    List.filter_congr fun p _ => hpred p
  rw [hfilter]
  -- the rows that are left are not flagged
  calc (t.rows.filter fun p => decide (p.1 ∉ ids) && !p.2.uploaded).map (flagRow ids)
      = (t.rows.filter fun p => decide (p.1 ∉ ids) && !p.2.uploaded).map id := by
        refine List.map_congr_left fun p hp => ?_
        have hnot : p.1 ∉ ids := by
          have := (List.mem_filter.mp hp).2
          simp only [Bool.and_eq_true, decide_eq_true_eq] at this
          exact this.1
        simp [flagRow, hnot]
    _ = _ := List.map_id _

/-! ## The batch -/

theorem replayBatch_eq (cfg : GatewayConfig V) : replayBatch cfg = batchOf cfg := by
  unfold replayBatch batchOf
  by_cases h0 : cfg.mqtt_replay_batch = 0
  · simp [h0]
  · simp only [if_neg h0]
    split <;> omega

theorem batchOf_pos (cfg : GatewayConfig V) : 0 < batchOf cfg := by
  unfold batchOf
  by_cases h0 : cfg.mqtt_replay_batch = 0
  · rw [if_pos h0]
    decide
  · rw [if_neg h0]
    have hpos : 0 < cfg.mqtt_replay_batch.toNat := by
      rcases Nat.eq_zero_or_pos cfg.mqtt_replay_batch.toNat with h | h
      · exact absurd (UInt32.toNat_inj.mp h) h0
      · exact h
    exact Nat.lt_min.mpr ⟨hpos, by decide⟩

theorem batchOf_le (cfg : GatewayConfig V) : batchOf cfg ≤ 64 := by
  unfold batchOf
  split
  · decide
  · exact Nat.min_le_right _ _

/-- The rows of a batch, in the order of their ids. -/
theorem batch_sorted (t : Table (TelemetryRow V)) (b : Nat) :
    ((pendingRows t).take b).Pairwise fun p q => p.1 < q.1 :=
  t.sorted.sublist ((List.take_sublist _ _).trans List.filter_sublist)

theorem pending_nodup (t : Table (TelemetryRow V)) : ((pendingRows t).map Prod.fst).Nodup :=
  t.nodup_ids.sublist (List.filter_sublist.map Prod.fst)

theorem fetch_some (db : Storage V) (max_rows k : Nat) :
    ∃ rows, storageFetchPendingTelemetry db max_rows (some k) = some rows := by
  unfold storageFetchPendingTelemetry
  split
  · exact ⟨_, rfl⟩
  · exact ⟨_, rfl⟩

/-! ## The calls inside a replay -/

/-- A call on the session inside the replay. -/
theorem onNet_spec {α : Type} {x : Sys V α} {s₀ : ReplayState V} {Q : α → Net V → Prop}
    {E : Halt → Net V → Prop} (h : Triple (fun net => net = s₀.net) x Q E) :
    Triple (fun s => s = s₀) (onNet x) (fun a s => ∃ net, Q a net ∧ s = { s₀ with net := net })
      (fun _ _ => True) :=
  (Triple.focus h).halts fun _ _ _ => trivial

theorem logged_spec {x : Replay V Bool} {P : ReplayState V → Prop} {step : Bool → ReplayStep V}
    {Q : Bool → ReplayState V → Prop} {E : Halt → ReplayState V → Prop} (h : Triple P x Q E) :
    Triple P (logged step x)
      (fun ok s => ∃ s₁, Q ok s₁ ∧ s = { s₁ with log := s₁.log ++ [step ok] }) E := by
  refine Triple.bind_at h fun ok s₁ h₁ => ?_
  intro s hs
  subst hs
  exact ⟨s, h₁, rfl⟩

theorem replayMark_spec (row_id : Nat) (s₀ : ReplayState V) :
    Triple (fun s => s = s₀) (replayMark row_id)
      (fun ok s => ∃ net, Same s₀.net net ∧ s = { s₀ with
        net := net
        db := flag s₀.db (if ok then [row_id] else [])
        mqtt_replay_total := s₀.mqtt_replay_total + (if ok then 1 else 0) })
      (fun _ _ => True) := by
  refine Triple.bind_at (onNet_spec (sysOk_spec s₀.net)) fun ok s₁ h₁ => ?_
  obtain ⟨net, hsame, rfl⟩ := h₁
  intro s hs
  subst hs
  rcases storageMarkTelemetryUploaded_cases s₀.db row_id ok with hm | ⟨-, -, -, hm⟩
  · refine ⟨net, hsame, ?_⟩
    simp only [hm, flag]
    simp
  · refine ⟨net, hsame, ?_⟩
    simp only [hm, flag]
    simp

/-- A mark changes the flag and the counter if it succeeds, and the session never. -/
theorem replayMark_turn {s₀ : ReplayState V} (hr : Rest s₀.net) (row_id : Nat) :
    Triple (fun s => s = s₀) (logged (.marked row_id) (replayMark row_id))
      (fun ok s => ∃ net, Rest net ∧ After s₀.net net [] ∧ s = { s₀ with
        net := net
        db := flag s₀.db (if ok then [row_id] else [])
        mqtt_replay_total := s₀.mqtt_replay_total + (if ok then 1 else 0)
        log := s₀.log ++ [.marked row_id ok] })
      (fun _ _ => True) := by
  refine (logged_spec (replayMark_spec row_id s₀)).post fun ok s h => ?_
  obtain ⟨s₁, ⟨net, hsame, rfl⟩, rfl⟩ := h
  exact ⟨net, Rest.same hr hsame, hsame.after, rfl⟩

/-- The count at the end asks SQLite and changes nothing else. -/
theorem replayPendingCount_spec (s₀ : ReplayState V) :
    Triple (fun s => s = s₀) replayPendingCount
      (fun _ s => ∃ evs, s = { s₀ with net := { s₀.net with events := evs } })
      (fun _ _ => True) := by
  refine Triple.get_bind fun s hs => ?_
  subst hs
  by_cases hsql : s.db.use_sqlite = true
  · rw [if_pos hsql]
    refine Triple.bind_at (onNet_spec (sysOk_events s.net)) fun ok s₁ h₁ => ?_
    obtain ⟨net, hnet, rfl⟩ := h₁
    have hafter : ∃ evs, { s with net := net } = { s with net := { s.net with events := evs } } :=
      ⟨net.events, by rw [← hnet]⟩
    cases ok with
    | true => exact Triple.pure fun _ h => h ▸ hafter
    | false => exact Triple.pure fun _ h => h ▸ hafter
  · rw [if_neg hsql]
    refine Triple.pure fun s' h => ?_
    subst h
    exact ⟨s'.net.events, rfl⟩

/-! ## What a list of turns leaves behind -/

section
variable [CDouble V]

/-- The effect of turns on the session, the store and the counter. -/
structure Played (s₀ s : ReplayState V) (ts : List (ReplayTurn V)) : Prop where
  rest : Rest s.net
  sent : After s₀.net s.net (turnMessages s₀.net.cfg ts)
  db : s.db = flag s₀.db (flips ts)
  total : s.mqtt_replay_total = s₀.mqtt_replay_total + UInt64.ofNat (flips ts).length
  log : s.log = s₀.log ++ ts.flatMap ReplayTurn.steps

theorem Played.nil {s : ReplayState V} (hr : Rest s.net) : Played s s [] :=
  ⟨hr, After.refl s.net, rfl, by simp [flips], by simp⟩

theorem Played.append {s₀ s₁ s₂ : ReplayState V} {ts us : List (ReplayTurn V)}
    (h₁ : Played s₀ s₁ ts) (h₂ : Played s₁ s₂ us) : Played s₀ s₂ (ts ++ us) := by
  refine ⟨h₂.rest, ?_, ?_, ?_, ?_⟩
  · rw [turnMessages_append]
    exact h₁.sent.trans (h₁.sent.cfg ▸ h₂.sent)
  · rw [h₂.db, h₁.db, flips_append]
    exact (List.foldl_append ..).symm
  · rw [h₂.total, h₁.total, flips_append, List.length_append, UInt64.ofNat_add, UInt64.add_assoc]
  · rw [h₂.log, h₁.log, List.flatMap_append, List.append_assoc]

/-! ## One turn -/

/-- A publish that failed ends the session's connection and leaves no message. -/
theorem replayPublish_turn {s₀ : ReplayState V} (hr : Rest s₀.net) (p : Telemetry V) :
    Triple (fun s => s = s₀) (logged (.published p) (onNet (replayPublish p)))
      (fun ok s => ∃ net, Rest net ∧ After s₀.net net (sentIf ok (uploadMessage s₀.net.cfg p)) ∧
        s = { s₀ with net := net, log := s₀.log ++ [.published p ok] })
      (fun _ _ => True) := by
  refine (logged_spec (onNet_spec (replayPublish_spec hr p))).post fun ok s h => ?_
  obtain ⟨s₁, ⟨net, ⟨hrest, hafter⟩, rfl⟩, rfl⟩ := h
  exact ⟨net, hrest, hafter, rfl⟩

/-! ## The loop -/

/-- The loop of `mqtt_session_replay_pending`, by induction on the rows it has left. -/
theorem replayRows_turns : ∀ (rows : List (Nat × TelemetryRow V)) (replayed : Nat)
    {s₀ : ReplayState V}, Rest s₀.net →
    Triple (fun s => s = s₀)
      (replayRows (fun p => logged (.published p) (onNet (replayPublish p)))
        (fun row_id => logged (.marked row_id) (replayMark row_id)) replayed (rows.map fetchRow))
      (fun n s => ∃ ts, ReplayTurns rows ts ∧ Played s₀ s ts ∧ n = replayed + (flips ts).length)
      (fun _ _ => True) := by
  intro rows
  induction rows with
  | nil =>
    intro replayed s₀ hr
    refine Triple.pure fun s hs => ?_
    subst hs
    exact ⟨[], replayTurns_nil, Played.nil hr, rfl⟩
  | cons r rows ih =>
    intro replayed s₀ hr
    refine Triple.bind_at (replayPublish_turn hr (fetchRow r).point) fun ok s₁ h₁ => ?_
    obtain ⟨net₁, hr₁, ha₁, rfl⟩ := h₁
    cases ok with
    | false =>
      refine Triple.pure fun s hs => ?_
      subst hs
      refine ⟨[⟨r, false, false⟩], replayTurns_stop, ⟨hr₁, ha₁, rfl, ?_, rfl⟩, rfl⟩
      simp [flips]
    | true =>
      refine Triple.bind_at (replayMark_turn hr₁ r.1) fun ok s₂ h₂ => ?_
      obtain ⟨net₂, hr₂, ha₂, hs₂⟩ := h₂
      -- the turn of this row, then the turns of the rest
      have hturn : Played s₀ s₂ [⟨r, true, ok⟩] := by
        rw [hs₂]
        refine ⟨hr₂, ha₁.then_quiet ha₂, ?_, ?_, ?_⟩
        · cases ok <;> rfl
        · cases ok <;> simp [flips]
        · simp [ReplayTurn.steps]
      cases ok with
      | true =>
        refine (ih (replayed + 1) hturn.rest).post fun n s h => ?_
        obtain ⟨ts, hts, hp, rfl⟩ := h
        refine ⟨⟨r, true, true⟩ :: ts, replayTurns_cons hts true, hturn.append hp, ?_⟩
        simp [flips]
        omega
      | false =>
        refine (ih replayed hturn.rest).post fun n s h => ?_
        obtain ⟨ts, hts, hp, rfl⟩ := h
        refine ⟨⟨r, true, false⟩ :: ts, replayTurns_cons hts false, hturn.append hp, ?_⟩
        simp [flips]

/-! ## One call -/

/-- What a call leaves behind, on the rows its `SELECT` delivered. -/
structure Called (s₀ s : ReplayState V) (rows : List (Nat × TelemetryRow V)) (replayed : Nat)
    (connected : Bool) (ts : List (ReplayTurn V)) : Prop where
  turns : connected = true ∧ ReplayTurns rows ts ∨ connected = false ∧ ts = []
  rest : Rest s.net
  sent : After s₀.net s.net (turnMessages s₀.net.cfg ts)
  db : s.db = flag s₀.db (flips ts)
  total : s.mqtt_replay_total = s₀.mqtt_replay_total + UInt64.ofNat (flips ts).length
  log : s.log = s₀.log ++ .connected connected :: ts.flatMap ReplayTurn.steps
  value : replayed = (flips ts).length

theorem replayLocked_spec {s₀ : ReplayState V} (hr : Rest s₀.net)
    (rows : List (Nat × TelemetryRow V)) :
    Triple (fun s => s = s₀) (replayLocked (rows.map fetchRow))
      (fun n s => ∃ connected ts, Called s₀ s rows n connected ts) (fun _ _ => True) := by
  refine Triple.bind_at (logged_spec (onNet_spec (mqttEnsureConnectedLocked_spec hr)))
    fun ok s₁ h₁ => ?_
  obtain ⟨_, ⟨net, ⟨hr₁, ha₁, -⟩, rfl⟩, hs₁⟩ := h₁
  have hrest : Rest s₁.net := hs₁ ▸ hr₁
  cases ok with
  | false =>
    refine Triple.pure fun s hs => ?_
    subst hs
    subst hs₁
    exact ⟨false, [], Or.inr ⟨rfl, rfl⟩, hr₁, ha₁, rfl, by simp [flips], rfl, rfl⟩
  | true =>
    refine (replayRows_turns rows 0 hrest).post fun n s h => ?_
    obtain ⟨ts, hts, hp, hn⟩ := h
    rw [hs₁] at hp
    refine ⟨true, ts, Or.inl ⟨rfl, hts⟩, hp.rest, ?_, hp.db, hp.total, ?_, ?_⟩
    · have hsent := hp.sent
      rw [show net.cfg = s₀.net.cfg from ha₁.cfg] at hsent
      exact ha₁.trans hsent
    · rw [hp.log]
      simp
    · rw [hn, Nat.zero_add]

theorem mqttSessionReplayPending_spec {s₀ : ReplayState V} (hr : Rest s₀.net)
    (hsql : s₀.db.use_sqlite = true) {k : Nat} (hb : 0 < replayBatch s₀.net.cfg)
    (hk : min (replayBatch s₀.net.cfg) (pendingRows s₀.db.telemetry).length ≤ k) :
    Triple (fun s => s = s₀) (mqttSessionReplayPending (some k))
      (fun n s => ∃ connected ts, Called s₀ s
        ((pendingRows s₀.db.telemetry).take (replayBatch s₀.net.cfg)) n connected ts)
      (fun _ _ => True) := by
  refine Triple.get_bind fun s hs => ?_
  subst hs
  rw [fetch_first hsql hb hk]
  refine Triple.bind_at (replayLocked_spec hr _) fun n s₁ h₁ => ?_
  obtain ⟨connected, ts, hc⟩ := h₁
  refine Triple.bind_at (replayPendingCount_spec s₁) fun count s₂ h₂ => ?_
  obtain ⟨evs, rfl⟩ := h₂
  have hsame : Same s₁.net { s₁.net with events := evs } := ⟨rfl, rfl, rfl, rfl, fun _ => rfl⟩
  intro s' hs'
  subst hs'
  exact ⟨connected, ts, hc.turns, Rest.same hc.rest hsame, hc.sent.then_quiet hsame.after, hc.db,
    hc.total, hc.log, hc.value⟩

section
variable {s₀ s : ReplayState V} {rows : List (Nat × TelemetryRow V)} {replayed : Nat}
  {connected : Bool} {ts : List (ReplayTurn V)}

theorem Called.tried (h : Called s₀ s rows replayed connected ts) :
    ts.map ReplayTurn.row <+: rows := by
  rcases h.turns with ⟨-, ht⟩ | ⟨-, rfl⟩
  · exact ht.tried
  · exact List.nil_prefix

theorem Called.stops (h : Called s₀ s rows replayed connected ts) :
    ∀ t ∈ ts.dropLast, t.published = true := by
  rcases h.turns with ⟨-, ht⟩ | ⟨-, rfl⟩
  · exact ht.stops
  · intro t ht
    cases ht

/-- The rows published and marked are rows of the batch. -/
theorem Called.flips_sublist (h : Called s₀ s rows replayed connected ts) :
    List.Sublist (flips ts) (rows.map Prod.fst) :=
  (Proof.flips_sublist ts).trans (h.tried.sublist.map _)

end

/-- **One call.** -/
theorem replayCall_outcome {s s' : ReplayState V} (hr : Rest s.net)
    (hsql : s.db.use_sqlite = true) {c : Nat × List Event} {replayed : Nat}
    (hk : min (batchOf s.net.cfg) (pendingRows s.db.telemetry).length ≤ c.1)
    (hcall : replayCall s c = some (replayed, s')) :
    Rest s'.net ∧ s'.net.cfg = s.net.cfg ∧ ∃ connected ts, ReplayOutcome s s'
      ((pendingRows s.db.telemetry).take (batchOf s.net.cfg)) replayed connected ts := by
  let s₀ : ReplayState V := { s with net := { s.net with events := c.2 } }
  have hrest : Rest s₀.net := Rest.same hr ⟨rfl, rfl, rfl, rfl, fun _ => rfl⟩
  have hbatch : replayBatch s₀.net.cfg = batchOf s.net.cfg := replayBatch_eq s.net.cfg
  have hpos : 0 < replayBatch s₀.net.cfg := hbatch ▸ batchOf_pos s.net.cfg
  have hk₀ : min (replayBatch s₀.net.cfg) (pendingRows s₀.db.telemetry).length ≤ c.1 := by
    rw [hbatch]
    exact hk
  obtain ⟨connected, ts, h⟩ :=
    (mqttSessionReplayPending_spec hrest hsql hpos hk₀).of_result rfl hcall
  rw [hbatch] at h
  obtain ⟨hstore, hseq, hrows⟩ := flag_spec (flips ts) s.db
  have hdb : s'.db = flag s.db (flips ts) := h.db
  have hsorted := batch_sorted s.db.telemetry (batchOf s.net.cfg)
  refine ⟨h.rest, h.sent.cfg, connected, ts, h.tried,
    ((published_first h.stops).map _).trans h.tried, ?_, h.stops, ?_, h.log, h.sent.messages,
    fun p hp hid => ?_, ?_, ?_, ?_, h.value, ?_, ?_⟩
  · -- the rows are tried in the order of their ids
    have := hsorted.sublist h.tried.sublist
    rw [List.pairwise_map] at this ⊢
    exact this
  · rcases h.turns with ⟨-, ht⟩ | hno
    · exact ht.whole.imp_right Or.inr
    · exact Or.inr (Or.inl hno)
  · -- a row of the batch is the table's row of that id
    obtain ⟨q, hq, hpq⟩ := List.mem_map.mp (h.flips_sublist.subset hid)
    have hmem := List.mem_filter.mp (List.mem_of_mem_take hq)
    rw [← Table.eq_of_id_eq hmem.1 hp hpq]
    simpa using hmem.2
  · rw [hdb]
    exact hrows
  · rw [hdb]
    exact hseq
  · rw [hdb]
    exact hstore
  · -- the counter is 64 bits wide, and grows by at most a batch
    have hle : (flips ts).length ≤ 64 := by
      calc (flips ts).length ≤ ((pendingRows s.db.telemetry).take (batchOf s.net.cfg)).length := by
            simpa using h.flips_sublist.length_le
        _ ≤ batchOf s.net.cfg := by
            rw [List.length_take]
            exact Nat.min_le_left _ _
        _ ≤ 64 := batchOf_le _
    have htotal : s'.mqtt_replay_total =
        s.mqtt_replay_total + UInt64.ofNat (flips ts).length := h.total
    rw [htotal, UInt64.add_comm, UInt64.add_sub_cancel, h.value]
    exact UInt64.toNat_ofNat_of_lt' (Nat.lt_of_le_of_lt hle (by decide))
  · -- what is still pending is what was not flipped
    have hall : List.Sublist (flips ts) ((pendingRows s.db.telemetry).map Prod.fst) :=
      h.flips_sublist.trans ((List.take_sublist _ _).map _)
    have hsplit := List.length_eq_length_filter_add (l := pendingRows s.db.telemetry)
      fun p => decide (p.1 ∈ flips ts)
    rw [Table.length_filter_mem (pending_nodup s.db.telemetry) hall] at hsplit
    have hpending := pending_of_flagRow (hdb ▸ hrows)
    rw [hpending, hsplit, h.value, Nat.add_comm]
    simp

end

/-! ## The session's view

To the session a replay is one of its calls: the marks only take their answers from the outside.
So the session after a replay is one that the results on session runs speak of. -/

theorem onNet_mirrors {α : Type} (x : Sys V α) : Mirrors ReplayState.net Eq (onNet x) x :=
  Mirrors.focus (fun _ _ => rfl) x

theorem logged_mirrors {R : Bool → Bool → Prop} {y : Replay V Bool} {x : Sys V Bool}
    (step : Bool → ReplayStep V) (h : Mirrors ReplayState.net R y x) :
    Mirrors ReplayState.net R (logged step y) x :=
  h.then_rest fun a _ hab _ => ⟨a, _, rfl, hab, rfl⟩

theorem replayMark_mirrors (row_id : Nat) :
    Mirrors ReplayState.net (fun _ _ => True) (replayMark row_id : Replay V Bool) sysOk := by
  refine Mirrors.then_rest (onNet_mirrors sysOk) ?_
  intro ok _ _ s
  exact ⟨_, _, rfl, trivial, rfl⟩

section
variable [CDouble V]

/-- The loop goes on after a mark whatever it returned, so the session sees the same loop. -/
theorem replayRows_mirrors : ∀ (rows : List (StorageTelemetryRow V)) (m n : Nat),
    Mirrors ReplayState.net (fun _ _ => True)
      (replayRows (fun p => logged (.published p) (onNet (replayPublish p)))
        (fun row_id => logged (.marked row_id) (replayMark row_id)) m rows)
      (replayRows replayPublish (fun _ => sysOk) n rows) := by
  intro rows
  induction rows with
  | nil => exact fun _ _ => Mirrors.pure trivial
  | cons r rows ih =>
    intro m n
    refine Mirrors.bind (logged_mirrors _ (onNet_mirrors (replayPublish r.point))) ?_
    intro ok _ hok
    subst hok
    cases ok with
    | false => exact Mirrors.pure trivial
    | true =>
      refine Mirrors.bind (logged_mirrors _ (replayMark_mirrors r.row_id)) fun a b _ => ?_
      cases a <;> cases b <;> exact ih _ _

theorem replayLocked_mirrors (rows : List (StorageTelemetryRow V)) :
    Mirrors ReplayState.net (fun _ _ => True) (replayLocked rows) (mqttReplayLocked rows) := by
  refine Mirrors.bind (logged_mirrors _ (onNet_mirrors mqttEnsureConnectedLocked)) ?_
  intro ok _ hok
  subst hok
  cases ok with
  | true => exact replayRows_mirrors rows 0 0
  | false => exact Mirrors.pure trivial

/-- **A replay is a call of the session.** What it leaves of the session is what the call
    `replayPending` leaves, on the rows that were fetched, up to answers not yet used. -/
theorem replayCall_session {s s' : ReplayState V} {c : Nat × List Event} {replayed : Nat}
    (h : replayCall s c = some (replayed, s')) :
    ∃ rows net, sessionRun s.net [(.replayPending rows, c.2)] = (net, none) ∧
      s'.net = { net with events := s'.net.events } := by
  let s₀ : ReplayState V := { s with net := { s.net with events := c.2 } }
  obtain ⟨rows, hrows⟩ := fetch_some s.db (replayBatch s.net.cfg) c.1
  have hlocked : Triple (fun t => t = s₀) (replayLocked rows)
      (fun _ t => ∃ n, mqttReplayLocked rows s₀.net = (.ok n, t.net)) (fun _ _ => True) := by
    intro t ht
    subst ht
    rcases hy : replayLocked rows s₀ with ⟨e | m, t⟩
    · trivial
    · obtain ⟨n, -, hx⟩ := (replayLocked_mirrors rows).returns hy
      exact ⟨n, hx⟩
  have hcall : Triple (fun t => t = s₀) (mqttSessionReplayPending (some c.1))
      (fun _ t => ∃ n net, mqttReplayLocked rows s₀.net = (.ok n, net) ∧
        t.net = { net with events := t.net.events }) (fun _ _ => True) := by
    refine Triple.get_bind fun t ht => ?_
    subst ht
    rw [show storageFetchPendingTelemetry s₀.db (replayBatch s₀.net.cfg) (some c.1) = some rows
      from hrows]
    refine Triple.bind_at hlocked fun m s₁ h₁ => ?_
    obtain ⟨n, hn⟩ := h₁
    refine Triple.bind_at (replayPendingCount_spec s₁) fun count s₂ h₂ => ?_
    obtain ⟨evs, rfl⟩ := h₂
    intro t ht
    subst ht
    exact ⟨n, s₁.net, hn, rfl⟩
  obtain ⟨n, net, hn, hnet⟩ := hcall.of_result rfl h
  refine ⟨rows, net, ?_, hnet⟩
  have hrc : (SessionCall.replayPending rows).rc { s.net with events := c.2 } = (.ok n, net) :=
    Prog.bind_apply_ok hn _
  rw [sessionRun_cons, hrc]
  rfl

end

end Proof
end EdgeFlow
