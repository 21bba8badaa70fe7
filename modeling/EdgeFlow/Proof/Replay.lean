import EdgeFlow.Proof.Progress
import EdgeFlow.Proof.ReplayCall

/-!
# The replay delivers the backlog

A round in which nothing failed takes the first rows off the backlog and leaves the others, so
rounds compose as `take` and `drop` do, and enough of them leave nothing. That such rounds exist
is the part that needs the code to be total: `Smooth` goes through a call with calm answers only
and comes out at its end.
-/

set_option autoImplicit false

namespace EdgeFlow

open Lib

variable {V : Type}

/-- The result a step of the log recorded. -/
def ReplayStep.ok : ReplayStep V → Bool
  | .connected ok => ok
  | .published _ ok => ok
  | .marked _ ok => ok

/-- A call whose `SELECT` delivers, and in which every connect, publish and mark succeeds. -/
def FailureFree [CDouble V] (s : ReplayState V) (c : Nat × List Event) : Prop :=
  min (batchOf s.net.cfg) (pendingRows s.db.telemetry).length ≤ c.1 ∧
    ∀ s', replayRound s c = some s' → ∀ step ∈ s'.log.drop s.log.length, step.ok = true

namespace Proof

/-! ## A call in which nothing fails -/

/-- Inside a call in which nothing has failed, with `n` calm answers to come. -/
structure Smooth (s₀ : ReplayState V) (n : Nat) (s : ReplayState V) : Prop where
  fair : ∃ fd, Fair (some fd) (some fd) true n s.net
  sql : s.db.use_sqlite = true
  log : ∃ steps, s.log = s₀.log ++ steps ∧ ∀ step ∈ steps, step.ok = true

section
variable {s₀ : ReplayState V} {n : Nat}

theorem Smooth.mono {s : ReplayState V} {m : Nat} (h : Smooth s₀ n s) (hm : m ≤ n) :
    Smooth s₀ m s := by
  obtain ⟨fd, hf⟩ := h.fair
  exact ⟨⟨fd, hf.mono hm⟩, h.sql, h.log⟩

theorem logged_smooth {m : Nat} {x : Replay V Bool} {step : Bool → ReplayStep V}
    (hstep : (step true).ok = true)
    (h : Triple (Smooth s₀ m) x (fun r s => r = true ∧ Smooth s₀ n s) (fun _ _ => False)) :
    Triple (Smooth s₀ m) (logged step x) (fun r s => r = true ∧ Smooth s₀ n s)
      (fun _ _ => False) := by
  refine (logged_spec h).post fun r s hs => ?_
  obtain ⟨s₁, ⟨rfl, h₁⟩, rfl⟩ := hs
  obtain ⟨steps, hlog, hok⟩ := h₁.log
  refine ⟨rfl, h₁.fair, h₁.sql, steps ++ [step true], ?_, fun st hst => ?_⟩
  · rw [← List.append_assoc, ← hlog]
  · rcases List.mem_append.mp hst with hst | hst
    · exact hok st hst
    · rw [List.mem_singleton.mp hst]
      exact hstep

theorem onNet_smooth {m : Nat} {x : Sys V Bool} (hx : ∀ fd, Triple (Fair (some fd) (some fd) true m)
      x (fun r s => r = true ∧ Fair (some fd) (some fd) true n s) (fun _ _ => False)) :
    Triple (Smooth s₀ m) (onNet x) (fun r s => r = true ∧ Smooth s₀ n s) (fun _ _ => False) := by
  refine Triple.at_state fun s₁ h₁ => ?_
  obtain ⟨fd, hfair⟩ := h₁.fair
  refine (Triple.focus ((hx fd).starting hfair)).conseq (fun _ h => h) (fun r s h => ?_)
    fun _ _ h => ?_
  · obtain ⟨net, ⟨hr, hf⟩, rfl⟩ := h
    exact ⟨hr, ⟨fd, hf⟩, h₁.sql, h₁.log⟩
  · obtain ⟨_, hno, -⟩ := h
    exact hno

theorem replayMark_smooth {row_id : Nat} (hpos : 0 < row_id) :
    Triple (Smooth s₀ (n + 1)) (replayMark row_id) (fun r s => r = true ∧ Smooth s₀ n s)
      (fun _ _ => False) := by
  refine Triple.bind_at (onNet_smooth fun fd => sysOk_fair) fun ok s₁ h₁ => ?_
  obtain ⟨rfl, h₁⟩ := h₁
  intro s hs
  subst hs
  have hmark : storageMarkTelemetryUploaded s.db row_id true =
      (true, { s.db with telemetry := s.db.telemetry.update row_id TelemetryRow.setUploaded }) := by
    simp [storageMarkTelemetryUploaded, h₁.sql, Nat.ne_of_gt hpos]
  refine ⟨congrArg Prod.fst hmark, h₁.fair, ?_, h₁.log⟩
  show (storageMarkTelemetryUploaded s.db row_id true).2.use_sqlite = true
  rw [mark_use_sqlite]
  exact h₁.sql

theorem connect_smooth {f : Option Nat} {b : Bool} (hfair : Fair f f b (n + 5) s₀.net)
    (hsql : s₀.db.use_sqlite = true) :
    Triple (fun s => s = s₀) (logged .connected (onNet mqttEnsureConnectedLocked))
      (fun r s => r = true ∧ Smooth s₀ n s) (fun _ _ => False) := by
  have hconnect := mqttEnsureConnectedLocked_fair.starting hfair
  refine (logged_spec (Triple.focus hconnect)).conseq (fun _ h => h) (fun r s h => ?_)
    fun _ _ h => ?_
  · obtain ⟨_, ⟨net, ⟨rfl, hf⟩, rfl⟩, rfl⟩ := h
    refine ⟨rfl, hf, hsql, [.connected true], rfl, fun step hstep => ?_⟩
    rw [List.mem_singleton.mp hstep]
    rfl
  · obtain ⟨_, hno, -⟩ := h
    exact hno

theorem replayPendingCount_smooth :
    Triple (Smooth s₀ (n + 1)) replayPendingCount (fun _ => Smooth s₀ n) (fun _ _ => False) := by
  refine Triple.get_bind fun s₁ h₁ => ?_
  rw [if_pos h₁.sql]
  refine Triple.bind_at ((onNet_smooth fun fd => sysOk_fair).starting h₁) fun ok s₂ h₂ => ?_
  obtain ⟨rfl, h₂⟩ := h₂
  exact Triple.pure fun s hs => hs ▸ h₂

end

/-! ## Rounds without a failure -/

theorem flips_of_ok {ts : List (ReplayTurn V)}
    (hall : ∀ t ∈ ts, t.published = true ∧ t.marked = true) :
    flips ts = (ts.map ReplayTurn.row).map Prod.fst := by
  unfold flips
  rw [List.filter_eq_self.mpr fun t ht => by simp [hall t ht], List.map_map]
  rfl

section
variable [CDouble V]

section
variable {s s' : ReplayState V} {rows : List (Nat × TelemetryRow V)} {replayed : Nat}
  {connected : Bool} {ts : List (ReplayTurn V)}

/-- If nothing failed, every row had its turn, and was published and marked in it. -/
theorem turns_of_ok (h : ReplayOutcome s s' rows replayed connected ts)
    (hok : ∀ step ∈ s'.log.drop s.log.length, step.ok = true) :
    ts.map ReplayTurn.row = rows ∧ ∀ t ∈ ts, t.published = true ∧ t.marked = true := by
  rw [h.log, List.drop_left] at hok
  have hall : ∀ t ∈ ts, t.published = true ∧ t.marked = true := by
    intro t ht
    have hsteps : ∀ step ∈ t.steps, step.ok = true := fun step hstep =>
      hok step (List.mem_cons_of_mem _ (List.mem_flatMap.mpr ⟨t, ht, hstep⟩))
    have hpub : t.published = true := hsteps _ List.mem_cons_self
    refine ⟨hpub, hsteps (.marked t.row.1 t.marked) ?_⟩
    rw [ReplayTurn.steps, if_pos hpub]
    exact List.mem_cons_of_mem _ List.mem_cons_self
  refine ⟨?_, hall⟩
  rcases h.whole with hw | ⟨hno, -⟩ | ⟨t, ht, hno⟩
  · exact hw
  · have hcon := hok (.connected connected) List.mem_cons_self
    rw [hno] at hcon
    cases hcon
  · have hpub := (hall t (List.mem_of_getLast? ht)).1
    rw [hno] at hpub
    cases hpub

theorem turnMessages_of_ok (cfg : GatewayConfig V)
    (hall : ∀ t ∈ ts, t.published = true ∧ t.marked = true) :
    turnMessages cfg ts =
      (ts.map ReplayTurn.row).map fun p => uploadMessage cfg (fetchRow p).point := by
  unfold turnMessages
  rw [List.filter_eq_self.mpr fun t ht => (hall t ht).1, List.map_map]
  rfl

end

/-- A session between calls over a store with a database. -/
def ReplayReady (s : ReplayState V) : Prop := Rest s.net ∧ s.db.use_sqlite = true

/-- **One round** publishes the first batch of the backlog and takes it off. -/
theorem failureFree_round {s s' : ReplayState V} {c : Nat × List Event} (hs : ReplayReady s)
    (hff : FailureFree s c) (hround : replayRound s c = some s') :
    ReplayReady s' ∧ s'.net.cfg = s.net.cfg ∧
      pendingRows s'.db.telemetry = (pendingRows s.db.telemetry).drop (batchOf s.net.cfg) ∧
      s'.net.messages = s.net.messages ++ ((pendingRows s.db.telemetry).take
        (batchOf s.net.cfg)).map fun p => uploadMessage s.net.cfg (fetchRow p).point := by
  obtain ⟨⟨replayed, _⟩, hcall, rfl⟩ := Option.map_eq_some_iff.mp hround
  obtain ⟨hrest, hcfg, connected, ts, h⟩ := replayCall_outcome hs.1 hs.2 hff.1 hcall
  obtain ⟨hrows, hall⟩ := turns_of_ok h (hff.2 _ hround)
  refine ⟨⟨hrest, ?_⟩, hcfg, ?_, ?_⟩
  · rw [h.store]
    exact hs.2
  · rw [pending_of_flagRow h.rows_eq, flips_of_ok hall, hrows]
    exact Table.filter_not_mem_take (pending_nodup _) _
  · rw [h.messages, turnMessages_of_ok _ hall, hrows]

/-- **Rounds compose as `take` and `drop` do.** -/
theorem failureFree_rounds : ∀ (rounds : List (Nat × List Event)) {s s' : ReplayState V},
    ReplayReady s → Along replayRound FailureFree s rounds →
    run replayRound s rounds = some s' →
    s'.db.use_sqlite = true ∧
      pendingRows s'.db.telemetry =
        (pendingRows s.db.telemetry).drop (rounds.length * batchOf s.net.cfg) ∧
      s'.net.messages = s.net.messages ++ ((pendingRows s.db.telemetry).take
        (rounds.length * batchOf s.net.cfg)).map fun p =>
          uploadMessage s.net.cfg (fetchRow p).point := by
  intro rounds
  induction rounds with
  | nil =>
    intro s s' hs _ hrun
    cases hrun
    exact ⟨hs.2, by simp, by simp⟩
  | cons c rounds ih =>
    intro s s' hs halong hrun
    obtain ⟨s₁, hround, hrun⟩ := run_cons_eq_some.mp hrun
    obtain ⟨hs₁, hcfg, hpend, hmsgs⟩ := failureFree_round hs halong.1 hround
    obtain ⟨hsql, hpend', hmsgs'⟩ := ih hs₁ (halong.2 s₁ hround) hrun
    rw [hcfg, hpend] at hpend' hmsgs'
    have hlen : (rounds.length + 1) * batchOf s.net.cfg =
        batchOf s.net.cfg + rounds.length * batchOf s.net.cfg := by
      rw [Nat.add_mul, Nat.one_mul, Nat.add_comm]
    refine ⟨hsql, ?_, ?_⟩
    · rw [hpend', List.drop_drop, List.length_cons, hlen]
    · rw [hmsgs', hmsgs, List.length_cons, hlen, List.take_add, List.map_append, List.append_assoc]

/-! ## Such rounds exist -/

section
variable {s₀ : ReplayState V} {n : Nat}

/-- The loop takes two answers a row. -/
theorem replayRows_smooth : ∀ (rows : List (StorageTelemetryRow V)) (replayed : Nat),
    (∀ r ∈ rows, 0 < r.row_id) →
    Triple (Smooth s₀ (n + 2 * rows.length))
      (replayRows (fun p => logged (.published p) (onNet (replayPublish p)))
        (fun row_id => logged (.marked row_id) (replayMark row_id)) replayed rows)
      (fun _ => Smooth s₀ n) (fun _ _ => False) := by
  intro rows
  induction rows with
  | nil => exact fun _ _ => Triple.pure fun _ h => h
  | cons r rows ih =>
    intro replayed hpos
    have hpublish : Triple (Smooth s₀ (n + 2 * rows.length + 1 + 1))
        (logged (.published r.point) (onNet (replayPublish r.point)))
        (fun ok s => ok = true ∧ Smooth s₀ (n + 2 * rows.length + 1) s) (fun _ _ => False) :=
      logged_smooth rfl (onNet_smooth fun fd => replayPublish_fair r.point)
    refine Triple.bind_at hpublish fun ok s₁ h₁ => ?_
    obtain ⟨rfl, h₁⟩ := h₁
    have hmark : Triple (Smooth s₀ (n + 2 * rows.length + 1))
        (logged (.marked r.row_id) (replayMark r.row_id))
        (fun ok s => ok = true ∧ Smooth s₀ (n + 2 * rows.length) s) (fun _ _ => False) :=
      logged_smooth rfl (replayMark_smooth (hpos r List.mem_cons_self))
    refine Triple.bind_at (hmark.starting h₁) fun ok s₂ h₂ => ?_
    obtain ⟨rfl, h₂⟩ := h₂
    exact (ih (replayed + 1) fun r' hr' => hpos r' (List.mem_cons_of_mem _ hr')).starting h₂

end

/-- A whole call needs five answers to connect, two a row and one for the count. -/
theorem mqttSessionReplayPending_smooth {s₀ : ReplayState V} {f : Option Nat} {b : Bool}
    (hfair : Fair f f b (1 + 2 * 64 + 5) s₀.net) (hsql : s₀.db.use_sqlite = true) :
    Triple (fun s => s = s₀) (mqttSessionReplayPending (some (batchOf s₀.net.cfg)))
      (fun _ => Smooth s₀ 0) (fun _ _ => False) := by
  let rows := ((pendingRows s₀.db.telemetry).take (batchOf s₀.net.cfg)).map fetchRow
  have hfew : rows.length ≤ 64 := by
    rw [List.length_map, List.length_take]
    exact Nat.le_trans (Nat.min_le_left _ _) (batchOf_le _)
  have hids : ∀ r ∈ rows, 0 < r.row_id := by
    intro r hr
    obtain ⟨p, hp, rfl⟩ := List.mem_map.mp hr
    exact (s₀.db.telemetry.ids p (List.mem_filter.mp (List.mem_of_mem_take hp)).1).1
  refine Triple.get_bind fun s hs => ?_
  subst hs
  rw [replayBatch_eq, fetch_first hsql (batchOf_pos _) (Nat.min_le_left _ _)]
  refine Triple.bind (Q := fun _ => Smooth s 1) ?_ fun _ =>
    Triple.bind replayPendingCount_smooth fun _ => ?_
  · refine Triple.bind_at (connect_smooth hfair hsql) fun ok s₁ h₁ => ?_
    obtain ⟨rfl, h₁⟩ := h₁
    exact (replayRows_smooth rows 0 hids).starting (h₁.mono (by omega))
  · intro t ht
    exact ⟨ht.fair, ht.sql, ht.log⟩

/-- A call with nothing but calm answers. -/
def calmCall (cfg : GatewayConfig V) : Nat × List Event :=
  (batchOf cfg, List.replicate (1 + 2 * 64 + 5) calmEvent)

/-- **Calm answers bring a call to its end, and nothing fails in it.** -/
theorem calm_round {s : ReplayState V} (hs : ReplayReady s) (hpeer : s.net.peerThere) :
    FailureFree s (calmCall s.net.cfg) ∧
      ∃ s', replayRound s (calmCall s.net.cfg) = some s' ∧ s'.net.peerThere := by
  let s₀ : ReplayState V := { s with net := { s.net with events := (calmCall s.net.cfg).2 } }
  have hfair : Fair s.net.fd s.net.fd s.net.connected (1 + 2 * 64 + 5) s₀.net :=
    ⟨fun i hi => hpeer i hi, rfl, rfl, _, Nat.le_refl _, rfl⟩
  obtain ⟨r, s', hres, hsmooth⟩ := (mqttSessionReplayPending_smooth hfair hs.2).exists_result rfl
  have hround : replayRound s (calmCall s.net.cfg) = some s' :=
    Option.map_eq_some_iff.mpr ⟨(r, s'), hres, rfl⟩
  refine ⟨⟨Nat.min_le_left _ _, fun s'' h'' => ?_⟩, s', hround, fun fd hfd => ?_⟩
  · rw [hround] at h''
    cases h''
    obtain ⟨steps, hlog, hok⟩ := hsmooth.log
    have hlog' : s'.log = s.log ++ steps := hlog
    rw [hlog', List.drop_left]
    exact hok
  · obtain ⟨fd', hf⟩ := hsmooth.fair
    rw [hf.fd_eq] at hfd
    exact hf.peer fd hfd

theorem calm_rounds : ∀ (n : Nat) {s : ReplayState V}, ReplayReady s → s.net.peerThere →
    ∃ rounds s', rounds.length = n ∧ Along replayRound FailureFree s rounds ∧
      run replayRound s rounds = some s' := by
  intro n
  induction n with
  | zero =>
    intro s _ _
    exact ⟨[], s, rfl, trivial, rfl⟩
  | succ n ih =>
    intro s hs hpeer
    obtain ⟨hff, s₁, hround, hpeer₁⟩ := calm_round hs hpeer
    obtain ⟨hs₁, -⟩ := failureFree_round hs hff hround
    obtain ⟨rounds, s', hlen, halong, hrun⟩ := ih hs₁ hpeer₁
    refine ⟨calmCall s.net.cfg :: rounds, s', by rw [List.length_cons, hlen],
      ⟨hff, fun t ht => ?_⟩, run_cons_eq_some.mpr ⟨s₁, hround, hrun⟩⟩
    rw [hround] at ht
    cases ht
    exact halong

/-- **The replay delivers the backlog in order.** From any state of the session between calls and
    any store with a database. One call that returns: its turns are on a prefix of the first `b`
    pending rows, as `ReplayOutcome` says. As many rounds without a failure as the backlog has
    batches: every pending row has been published once, in id order, and none is pending. And
    unless the broker has closed the session's connection, there are such rounds. -/
theorem replay_delivers_backlog (cfg : GatewayConfig V) (handled : List Signal)
    (calls : List (SessionCall V × List Event)) (s : ReplayState V)
    (hnet : sessionRun (mqttSessionInit cfg handled) calls = (s.net, none))
    (hsql : s.db.use_sqlite = true) :
    let b := if cfg.mqtt_replay_batch = 0 then 50 else min cfg.mqtt_replay_batch.toNat 64
    let backlog := pendingRows s.db.telemetry
    (∀ (c : Nat × List Event) (replayed : Nat) (s' : ReplayState V),
      min b backlog.length ≤ c.1 → replayCall s c = some (replayed, s') →
      ∃ connected ts, ReplayOutcome s s' (backlog.take b) replayed connected ts) ∧
    (∀ (rounds : List (Nat × List Event)) (s' : ReplayState V),
      rounds.length = (backlog.length + b - 1) / b →
      Along replayRound FailureFree s rounds → run replayRound s rounds = some s' →
      s'.net.messages = s.net.messages ++
          backlog.map (fun p => uploadMessage cfg (fetchRow p).point) ∧
        storagePendingTelemetryCount s'.db = 0) ∧
    (s.net.peerThere → ∃ rounds s', rounds.length = (backlog.length + b - 1) / b ∧
      Along replayRound FailureFree s rounds ∧ run replayRound s rounds = some s') := by
  intro b backlog
  have hrun := sessionRun_ok calls (rest_init cfg handled)
  rw [hnet] at hrun
  have hrest : Rest s.net := hrun.rest rfl
  obtain ⟨xs, hafter⟩ := hrun.after
  have hcfg : s.net.cfg = cfg := hafter.cfg
  have hb : batchOf s.net.cfg = b := by rw [hcfg]; rfl
  refine ⟨?_, ?_, calm_rounds _ ⟨hrest, hsql⟩⟩
  · intro c replayed s' hk hcall
    rw [← hb] at hk ⊢
    obtain ⟨-, -, hout⟩ := replayCall_outcome hrest hsql hk hcall
    exact hout
  · intro rounds s' hlen halong hrounds
    obtain ⟨hsql', hpend, hmsgs⟩ := failureFree_rounds rounds ⟨hrest, hsql⟩ halong hrounds
    have hpos : 0 < b := hb ▸ batchOf_pos s.net.cfg
    have hall : backlog.length ≤ rounds.length * b := by
      rw [hlen]
      have hdiv := Nat.div_add_mod (backlog.length + b - 1) b
      have hmod := Nat.mod_lt (backlog.length + b - 1) hpos
      rw [Nat.mul_comm] at hdiv
      omega
    rw [hb] at hpend hmsgs
    rw [List.drop_eq_nil_of_le hall] at hpend
    rw [List.take_of_length_le hall, hcfg] at hmsgs
    refine ⟨hmsgs, ?_⟩
    rw [storagePendingTelemetryCount, if_pos hsql', hpend]
    rfl

end

/-- Three readings in the store, and a session that has not connected yet. -/
def backlogOfThree : ReplayState ℚ where
  net := mqttSessionInit (gatewayConfigDefaults ℚ) []
  db := [hotReading .good, hotReading .good, hotReading .good].foldl
    (fun db p => (storageAppendTelemetry calmEnv db p).2) (storageOpen (gatewayConfigDefaults ℚ))
  mqtt_replay_total := 0
  storage_pending_count := 0
  log := []

/-- The first row is published and marked, the mark of the second fails, and so does the publish
    of the third. -/
theorem replay_delivers_backlog_cut :
    ∃ (s' : ReplayState ℚ) (ts : List (ReplayTurn ℚ)),
      replayCall backlogOfThree (3, connectEvents ++ [writeEvent, ⟨false, .ok 0 []⟩, writeEvent,
        ⟨false, .fail⟩, ⟨false, .fail⟩, ⟨false, .ok 0 []⟩]) = some (1, s') ∧
      s'.db.telemetry.rows.map (fun p => (p.1, p.2.uploaded)) =
        [(1, true), (2, false), (3, false)] ∧
      (flips ts).length = 1 ∧ (s'.mqtt_replay_total - 0).toNat = 1 := by
  have hcall : (replayCall backlogOfThree (3, connectEvents ++ [writeEvent, ⟨false, .ok 0 []⟩,
      writeEvent, ⟨false, .fail⟩, ⟨false, .fail⟩, ⟨false, .ok 0 []⟩])).map (fun r =>
        (r.1, r.2.db.telemetry.rows.map fun p => (p.1, p.2.uploaded))) =
      some (1, [(1, true), (2, false), (3, false)]) := by
    decide +kernel
  obtain ⟨⟨r, s'⟩, hs', he⟩ := Option.map_eq_some_iff.mp hcall
  obtain ⟨rfl, hflags⟩ := Prod.mk.inj he
  obtain ⟨connected, ts, hout⟩ := (replay_delivers_backlog (gatewayConfigDefaults ℚ) [] []
    backlogOfThree rfl rfl).1 _ _ _ (by decide +kernel) hs'
  exact ⟨s', ts, hs', hflags, hout.value.symm, hout.total⟩

end Proof
end EdgeFlow
