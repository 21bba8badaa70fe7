import EdgeFlow.Proof.Upload

/-!
# How often a row is uploaded

A row has two ways to the broker, the worker's live publish and the monitor's replay, and each
way is taken at most once: the worker publishes a row it has just inserted, under an id nobody
has seen, and the monitor publishes a row it found pending, and marks it before it looks again.

The two ways are not exclusive. A row is pending from its insert on, and the monitor reads the
pending rows before it takes the session lock; so **a fetch that falls between the worker's
insert and its mark returns a row the worker also publishes**. That is the only way to a second
upload: the invariant `Apart` says what holds of a row no such fetch has returned.
-/

set_option autoImplicit false

namespace EdgeFlow

open Lib

variable {V : Type}

/-- How many uploads of a row a thread has made. -/
def published (us : List (Upload V)) (t : Thread) (id : Nat) : Nat :=
  us.countP fun u => decide (u.thread = t) && decide (u.row_id = id)

namespace Proof

/-! ## Conditions on a step -/

/-- If the step is a mark, SQLite carries it out. -/
def MarkSucceeds : GatewayAct V → Prop
  | .worker (.mark ok) => ok = true
  | .monitor (.mark ok) => ok = true
  | _ => True

/-- The step is a fetch that returns row `id` while the worker has it in hand. -/
def FetchesHeld (cfg : GatewayConfig V) (id : Nat) (s : Gateway V) : GatewayAct V → Prop
  | .monitor (.fetch stepped) =>
    (∃ rows, storageFetchPendingTelemetry s.ctl.db (replayBatch cfg) stepped = some rows ∧
      ∃ r ∈ rows, r.row_id = id) ∧ ∃ p, s.worker.held s.ctl.db = some (p, id)
  | _ => False

/-! ## Counting -/

theorem published_snoc (us : List (Upload V)) (u : Upload V) (t : Thread) (id : Nat) :
    published (us ++ [u]) t id =
      published us t id + if u.thread = t ∧ u.row_id = id then 1 else 0 := by
  simp [published, List.countP_append, List.countP_cons]

/-- An upload by the other thread, or of another row, does not count. -/
theorem published_snoc_of_ne (us : List (Upload V)) {u : Upload V} {t : Thread} {id : Nat}
    (h : ¬(u.thread = t ∧ u.row_id = id)) : published (us ++ [u]) t id = published us t id := by
  rw [published_snoc, if_neg h, Nat.add_zero]

/-- Both threads' uploads are all uploads. -/
theorem published_add (us : List (Upload V)) (id : Nat) :
    published us .worker id + published us .monitor id =
      us.countP fun u => decide (u.row_id = id) := by
  induction us with
  | nil => rfl
  | cons u us ih =>
    simp only [published, List.countP_cons] at ih ⊢
    cases u.thread <;> by_cases hid : u.row_id = id <;> simp [hid] <;> omega

/-! ## Settled rows -/

/-- Row `id` is not pending. -/
def Settled (db : Storage V) (id : Nat) : Prop :=
  db.use_sqlite = true → ∀ row, (id, row) ∈ db.telemetry.rows → row.uploaded = true

theorem mark_use_sqlite (db : Storage V) (row_id : Nat) (ok : Bool) :
    (storageMarkTelemetryUploaded db row_id ok).2.use_sqlite = db.use_sqlite := by
  rcases storageMarkTelemetryUploaded_cases db row_id ok with h | ⟨-, -, -, h⟩ <;> rw [h]

theorem mark_seq (db : Storage V) (row_id : Nat) (ok : Bool) :
    (storageMarkTelemetryUploaded db row_id ok).2.telemetry.seq = db.telemetry.seq := by
  rcases storageMarkTelemetryUploaded_cases db row_id ok with h | ⟨-, -, -, h⟩ <;> rw [h]
  rfl

/-- A mark that succeeds settles its row. -/
theorem settled_mark (db : Storage V) {id : Nat} (hpos : 0 < id) :
    Settled (storageMarkTelemetryUploaded db id true).2 id := by
  intro hsql row hm
  rw [mark_use_sqlite] at hsql
  have hmark : storageMarkTelemetryUploaded db id true =
      (true, { db with telemetry := db.telemetry.update id TelemetryRow.setUploaded }) := by
    simp [storageMarkTelemetryUploaded, hsql, Nat.ne_of_gt hpos]
  rw [hmark] at hm
  obtain ⟨⟨id', row'⟩, -, he⟩ := Table.mem_update.mp hm
  have hid : id' = id :=
    (Table.updateRow_fst id TelemetryRow.setUploaded (id', row')).symm.trans (congrArg Prod.fst he)
  simp only [Table.updateRow, if_pos hid, Prod.mk.injEq] at he
  rw [← he.2]
  rfl

/-- No mark makes a row pending. -/
theorem Settled.mark {db : Storage V} {id : Nat} (h : Settled db id) (row_id : Nat) (ok : Bool) :
    Settled (storageMarkTelemetryUploaded db row_id ok).2 id := by
  intro hsql row hm
  rw [mark_use_sqlite] at hsql
  rcases storageMarkTelemetryUploaded_cases db row_id ok with hk | ⟨-, -, -, hk⟩
  · rw [hk] at hm
    exact h hsql row hm
  · rw [hk] at hm
    obtain ⟨⟨id', row'⟩, hq, he⟩ := Table.mem_update.mp hm
    unfold Table.updateRow at he
    split at he
    · cases he
      rfl
    · cases he
      exact h hsql row hq

/-- A fetched row is not settled. -/
theorem not_settled_of_fetch {db : Storage V} {max_rows : Nat} {stepped : Option Nat}
    {rows : List (StorageTelemetryRow V)} {r : StorageTelemetryRow V}
    (hf : storageFetchPendingTelemetry db max_rows stepped = some rows) (hr : r ∈ rows) :
    ¬Settled db r.row_id := by
  intro hset
  obtain ⟨row, hm, hpend, -⟩ := mem_fetch hf hr
  have hsql : db.use_sqlite = true := by
    by_contra hno
    have hnil : storageFetchPendingTelemetry db max_rows stepped = some [] := by
      simp [storageFetchPendingTelemetry, Bool.eq_false_iff.mpr hno]
    rw [hnil, Option.some.injEq] at hf
    rw [← hf] at hr
    cases hr
  rw [hset hsql row hm] at hpend
  cases hpend

/-- A fetch returns no row twice. -/
theorem fetch_nodup {db : Storage V} {max_rows : Nat} {stepped : Option Nat}
    {rows : List (StorageTelemetryRow V)}
    (hf : storageFetchPendingTelemetry db max_rows stepped = some rows) :
    (rows.map StorageTelemetryRow.row_id).Nodup := by
  unfold storageFetchPendingTelemetry at hf
  split at hf
  · cases hf
    exact List.nodup_nil
  · obtain ⟨k, -, rfl⟩ := Option.map_eq_some_iff.mp hf
    have hsub : List.Sublist (((pendingRows db.telemetry).take max_rows).take k)
        db.telemetry.rows :=
      (List.take_sublist _ _).trans ((List.take_sublist _ _).trans List.filter_sublist)
    rw [List.map_map]
    exact db.telemetry.nodup_ids.sublist (hsub.map Prod.fst)

/-! ## At most once by either thread -/

/-- What holds of row `id` whenever marks succeed. -/
structure OnceInv (id : Nat) (s : Gateway V) : Prop where
  live : published s.uploads .worker id ≤ 1
  replayed : published s.uploads .monitor id ≤ 1
  /-- The next row to be inserted has not been published. -/
  known : ∀ t, 0 < published s.uploads t id → id ≤ s.ctl.db.telemetry.seq
  held : ∀ p, s.worker.held s.ctl.db = some (p, id) →
    id ≤ s.ctl.db.telemetry.seq ∧ (s.worker.unmarked = none → published s.uploads .worker id = 0)
  fetched : (s.monitor.rows.map StorageTelemetryRow.row_id).Nodup
  rows : ∀ r ∈ s.monitor.rows, r.row_id = id →
    id ≤ s.ctl.db.telemetry.seq ∧ published s.uploads .monitor id = 0
  worker : 0 < published s.uploads .worker id →
    Settled s.ctl.db id ∨ ∃ p, s.worker.unmarked = some (p, id)
  monitor : 0 < published s.uploads .monitor id →
    Settled s.ctl.db id ∨ ∃ r, s.monitor.unmarked = some r ∧ r.row_id = id

section
variable {id : Nat} {s : Gateway V}

theorem held_of_unmarked {p : Telemetry V} {db : Storage V} {w : WorkerPc V} (hpos : 0 < id)
    (h : w.unmarked = some (p, id)) : w.held db = some (p, id) := by
  cases w with
  | mark q row_id =>
    cases h
    exact heldRow_eq_some.mpr ⟨hpos, rfl, rfl⟩
  | _ => cases h

/-- After a publish the worker holds the row it published, or none. -/
theorem held_toMark_ne {p q : Telemetry V} {row_id : Nat} {db : Storage V} (hid : row_id ≠ id) :
    (if 0 < row_id then WorkerPc.mark p row_id else .idle).held db ≠ some (q, id) := by
  intro hq
  split at hq
  · exact hid (heldRow_eq_some.mp hq).2.2
  · cases hq

/-- A row the worker has published and is done with is settled. -/
theorem OnceInv.settled_of_live (hi : OnceInv id s) (hun : s.worker.unmarked = none)
    (hp : 0 < published s.uploads .worker id) : Settled s.ctl.db id := by
  rcases hi.worker hp with h | ⟨p, hu⟩
  · exact h
  · rw [hun] at hu
    cases hu

/-- A row the monitor has published and is done with is settled. -/
theorem OnceInv.settled_of_replayed (hi : OnceInv id s) (hun : s.monitor.unmarked = none)
    (hp : 0 < published s.uploads .monitor id) : Settled s.ctl.db id := by
  rcases hi.monitor hp with h | ⟨r, hu, -⟩
  · exact h
  · rw [hun] at hu
    cases hu

/-- Uploads of other rows do not matter. -/
theorem OnceInv.upload_other (hi : OnceInv id s) {u : Upload V} (hid : u.row_id ≠ id) :
    OnceInv id { s with uploads := s.uploads ++ [u] } := by
  have hsame : ∀ t, published (s.uploads ++ [u]) t id = published s.uploads t id := fun t =>
    published_snoc_of_ne _ fun h => hid h.2
  obtain ⟨live, replayed, known, held, fetched, rows, worker, monitor⟩ := hi
  constructor
  · exact (hsame .worker).trans_le live
  · exact (hsame .monitor).trans_le replayed
  · intro t hp
    exact known t (hsame t ▸ hp)
  · intro p hp
    exact ⟨(held p hp).1, fun hun => (hsame .worker).trans ((held p hp).2 hun)⟩
  · exact fetched
  · intro r hr hid
    exact ⟨(rows r hr hid).1, (hsame .monitor).trans (rows r hr hid).2⟩
  · intro hp
    exact worker (hsame .worker ▸ hp)
  · intro hp
    exact monitor (hsame .monitor ▸ hp)

/-- A step of the worker that appends and marks nothing: it goes on with the row it holds, or
    gives it up. -/
theorem OnceInv.move (hi : OnceInv id s) {w : WorkerPc V} (hun : s.worker.unmarked = none)
    (hw : ∀ p, w.held s.ctl.db = some (p, id) → s.worker.held s.ctl.db = some (p, id))
    (net : Net V) (l : Option Thread) (ps : List (Telemetry V)) :
    OnceInv id { s with worker := w, net := net, lock := l, popped := ps } := by
  refine { hi with held := fun p hp => ?_, worker := fun hp => Or.inl (hi.settled_of_live hun hp) }
  exact ⟨(hi.held p (hw p hp)).1, fun _ => (hi.held p (hw p hp)).2 hun⟩

/-- A step of the monitor that fetches and marks nothing: it goes on with rows it has. -/
theorem OnceInv.monitorMove (hi : OnceInv id s) {m : MonitorPc V}
    (hun : s.monitor.unmarked = none) (hrows : List.Sublist m.rows s.monitor.rows)
    (net : Net V) (l : Option Thread) :
    OnceInv id { s with monitor := m, net := net, lock := l } :=
  { hi with
    fetched := hi.fetched.sublist (hrows.map _)
    rows := fun r hr => hi.rows r (hrows.subset hr)
    monitor := fun hp => Or.inl (hi.settled_of_replayed hun hp) }

/-- The worker's publish of the row it holds. -/
theorem OnceInv.publish (hi : OnceInv id s) (hpos : 0 < id) {p : Telemetry V} {row_id : Nat}
    (hpc : s.worker = .publishing p row_id) (net : Net V) :
    OnceInv id { s with
      net := net
      lock := none
      worker := if 0 < row_id then .mark p row_id else .idle
      uploads := s.uploads ++ [⟨.worker, row_id, p⟩] } := by
  have hun : s.worker.unmarked = none := by rw [hpc]; rfl
  by_cases hid : row_id = id
  · subst hid
    have hh : s.worker.held s.ctl.db = some (p, row_id) := by
      rw [hpc]
      exact heldRow_eq_some.mpr ⟨hpos, rfl, rfl⟩
    obtain ⟨hle, hfresh⟩ := hi.held p hh
    have hone : published (s.uploads ++ [⟨.worker, row_id, p⟩]) .worker row_id = 1 := by
      rw [published_snoc, hfresh hun, if_pos ⟨rfl, rfl⟩]
    have hmon : published (s.uploads ++ [⟨.worker, row_id, p⟩]) .monitor row_id =
        published s.uploads .monitor row_id :=
      published_snoc_of_ne _ fun h => by cases h.1
    simp only [if_pos hpos]
    refine ⟨Nat.le_of_eq hone, hmon ▸ hi.replayed, fun _ _ => hle, fun q hq => ⟨hle, ?_⟩,
      hi.fetched, fun r hr hid => ⟨hle, ?_⟩, fun _ => Or.inr ⟨p, rfl⟩, ?_⟩
    · intro hm
      cases hm
    · rw [hmon]
      exact (hi.rows r hr hid).2
    · rw [hmon]
      exact hi.monitor
  · exact (hi.move (w := if 0 < row_id then .mark p row_id else .idle) hun
      (fun q hq => absurd hq (held_toMark_ne hid)) net none s.popped).upload_other hid

/-- A mark that succeeds, by either thread: `w` and `m` are where the threads are after it. -/
theorem OnceInv.mark (hi : OnceInv id s) (hpos : 0 < id) {row_id : Nat} {w : WorkerPc V}
    {m : MonitorPc V} (hrows : m.rows = s.monitor.rows)
    (hw : w = s.worker ∨ (w = .idle ∧ ∃ p, s.worker.unmarked = some (p, row_id)))
    (hm : m = s.monitor ∨
      (m.unmarked = none ∧ ∃ r, s.monitor.unmarked = some r ∧ r.row_id = row_id)) :
    OnceInv id { s with
      worker := w
      monitor := m
      ctl := { s.ctl with db := (storageMarkTelemetryUploaded s.ctl.db row_id true).2 } } := by
  have hseq := mark_seq s.ctl.db row_id true
  refine { hi with
    known := fun t hp => hseq.symm ▸ hi.known t hp
    held := fun p hp => ?_
    fetched := hrows.symm ▸ hi.fetched
    rows := fun r hr hid => hseq.symm ▸ hi.rows r (hrows ▸ hr) hid
    worker := fun hp => ?_
    monitor := fun hp => ?_ }
  · rcases hw with rfl | ⟨rfl, -⟩
    · have hp : s.worker.held (storageMarkTelemetryUploaded s.ctl.db row_id true).2 =
        some (p, id) := hp
      rw [held_congr (mark_last_insert_rowid _ _ _)] at hp
      exact hseq.symm ▸ hi.held p hp
    · cases hp
  · rcases hi.worker hp with hset | ⟨p, hu⟩
    · exact Or.inl (hset.mark row_id true)
    · rcases hw with rfl | ⟨rfl, q, hq⟩
      · exact Or.inr ⟨p, hu⟩
      · rw [hu, Option.some.injEq, Prod.mk.injEq] at hq
        obtain ⟨-, rfl⟩ := hq
        exact Or.inl (settled_mark s.ctl.db hpos)
  · rcases hi.monitor hp with hset | ⟨r, hu, hid⟩
    · exact Or.inl (hset.mark row_id true)
    · rcases hm with rfl | ⟨-, q, hq, rfl⟩
      · exact Or.inr ⟨r, hu, hid⟩
      · rw [hu, Option.some.injEq] at hq
        subst hq
        subst hid
        exact Or.inl (settled_mark s.ctl.db hpos)

/-- A fetch: what it returns is pending, so the monitor has not published it. -/
theorem OnceInv.fetch (hi : OnceInv id s) {max_rows : Nat} {stepped : Option Nat}
    {rows : List (StorageTelemetryRow V)} (hidle : s.monitor = .idle)
    (hf : storageFetchPendingTelemetry s.ctl.db max_rows stepped = some rows) :
    OnceInv id { s with monitor := .fetched rows } := by
  have hset : 0 < published s.uploads .monitor id → Settled s.ctl.db id :=
    hi.settled_of_replayed (by rw [hidle]; rfl)
  refine { hi with
    fetched := fetch_nodup hf
    rows := fun r hr hid => ?_
    monitor := fun hp => Or.inl (hset hp) }
  subst hid
  obtain ⟨row, hm, -⟩ := mem_fetch hf hr
  refine ⟨(s.ctl.db.telemetry.ids _ hm).2, ?_⟩
  by_contra hne
  exact not_settled_of_fetch hf hr (hset (Nat.pos_of_ne_zero hne))

/-- The monitor's publish of a row it fetched. -/
theorem OnceInv.replay (hi : OnceInv id s) {r : StorageTelemetryRow V}
    {rows : List (StorageTelemetryRow V)} (hpc : s.monitor = .replaying (r :: rows))
    (net : Net V) :
    OnceInv id { s with
      net := net
      monitor := .marking r rows
      uploads := s.uploads ++ [⟨.monitor, r.row_id, r.point⟩] } := by
  have hrows : s.monitor.rows = r :: rows := by rw [hpc]; rfl
  by_cases hid : r.row_id = id
  · subst hid
    have hnodup := hi.fetched
    rw [hrows, List.map_cons, List.nodup_cons] at hnodup
    obtain ⟨hle, hfresh⟩ := hi.rows r (hrows ▸ List.mem_cons_self ..) rfl
    have hone : published (s.uploads ++ [⟨.monitor, r.row_id, r.point⟩]) .monitor r.row_id = 1 := by
      rw [published_snoc, hfresh, if_pos ⟨rfl, rfl⟩]
    have hwrk : published (s.uploads ++ [⟨.monitor, r.row_id, r.point⟩]) .worker r.row_id =
        published s.uploads .worker r.row_id :=
      published_snoc_of_ne _ fun h => by cases h.1
    refine ⟨hwrk ▸ hi.live, Nat.le_of_eq hone, fun _ _ => hle, fun p hp => hwrk ▸ hi.held p hp,
      hnodup.2, fun r' hr' hid => ?_, hwrk ▸ hi.worker, fun _ => Or.inr ⟨r, rfl, rfl⟩⟩
    exact absurd (List.mem_map.mpr ⟨r', hr', hid⟩) hnodup.1
  · have hsub : List.Sublist rows s.monitor.rows := hrows ▸ List.sublist_cons_self r rows
    exact (hi.monitorMove (m := .marking r rows) (by rw [hpc]; rfl) hsub net
      s.lock).upload_other hid

end

variable [CDouble V]

section
variable {env : StorageEnv} {cfg : GatewayConfig V} {reg : AdapterRegistry}

/-- Nor do the worker's own steps make an old row pending. -/
theorem Settled.localStep {c c' : Control V} {pc pc' : WorkerPc V} {id : Nat}
    (h : Settled c.db id) (hold : id ≤ c.db.telemetry.seq)
    (hl : localStep env cfg reg c pc = some (pc', c')) : Settled c'.db id := by
  obtain ⟨hsql, -, -, hcase⟩ := localStep_cases hl
  intro hs row hm
  rw [hsql] at hs
  rcases hcase with ⟨-, ht⟩ | ⟨p, -, -, -, ht⟩
  · rw [ht] at hm
    exact h hs row hm
  · rw [ht] at hm
    rcases Table.mem_insert.mp hm with hm | hm
    · exact h hs row hm
    · obtain ⟨rfl, -⟩ := Prod.mk.inj hm
      exact absurd hold (Nat.not_succ_le_self _)

theorem localStep_seq {c c' : Control V} {pc pc' : WorkerPc V}
    (hl : localStep env cfg reg c pc = some (pc', c')) :
    c.db.telemetry.seq ≤ c'.db.telemetry.seq := by
  obtain ⟨-, -, -, ⟨-, ht⟩ | ⟨p, -, -, -, ht⟩⟩ := localStep_cases hl
  · rw [ht]
  · rw [ht]
    exact Nat.le_succ _

section
variable {id : Nat} {s : Gateway V}

/-- A step of the worker's own. -/
theorem OnceInv.own (hi : OnceInv id s) {pc : WorkerPc V} {c : Control V}
    (hl : localStep env cfg reg s.ctl s.worker = some (pc, c))
    (trail : List (StateEngine V × CommandScheduler V)) :
    OnceInv id { s with worker := pc, ctl := c, trail := trail } := by
  obtain ⟨-, hun, hun', hcase⟩ := localStep_cases hl
  have hseq := localStep_seq hl
  have hset : ∀ t, 0 < published s.uploads t id → Settled s.ctl.db id → Settled c.db id :=
    fun t hp h => h.localStep (hi.known t hp) hl
  refine { hi with
    known := fun t hp => (hi.known t hp).trans hseq
    held := fun p hp => ?_
    rows := fun r hr hid => ⟨(hi.rows r hr hid).1.trans hseq, (hi.rows r hr hid).2⟩
    worker := fun hp => ?_
    monitor := fun hp => ?_ }
  · rcases hcase with ⟨hh, -⟩ | ⟨q, -, -, hh, ht⟩
    · have hp : pc.held c.db = some (p, id) := hp
      rw [hh] at hp
      exact ⟨(hi.held p hp).1.trans hseq, fun _ => (hi.held p hp).2 hun⟩
    · -- the row just inserted: its id is beyond everything published
      have hp : pc.held c.db = some (p, id) := hp
      rw [hh, Option.some.injEq, Prod.mk.injEq] at hp
      obtain ⟨-, rfl⟩ := hp
      refine ⟨Nat.le_of_eq (by rw [ht]; rfl), fun _ => ?_⟩
      by_contra hne
      exact Nat.not_succ_le_self _ (hi.known .worker (Nat.pos_of_ne_zero hne))
  · rcases hi.worker hp with h | ⟨p, hu⟩
    · exact Or.inl (hset .worker hp h)
    · rw [hun] at hu
      cases hu
  · rcases hi.monitor hp with h | h
    · exact Or.inl (hset .monitor hp h)
    · exact Or.inr h

theorem OnceInv.workerStep (hi : OnceInv id s) (hpos : 0 < id) {a : WorkerMove V}
    {s' : Gateway V} (hok : MarkSucceeds (.worker a)) (h : s.workerStep env cfg reg a = some s') :
    OnceInv id s' := by
  rcases worker_cases h with ⟨p, hpc, rfl⟩ | ⟨pc, c, hl, rfl⟩ | ⟨p, row_id, hpc, rfl⟩ |
    ⟨p, row_id, net, hpc, -, rfl⟩ | ⟨p, row_id, net, hpc, -, rfl⟩ | ⟨p, row_id, ok, rfl, hpc, rfl⟩
  · exact hi.move (by rw [hpc]; rfl) (fun _ hp => by cases hp) _ _ _
  · exact hi.own hl _
  · exact hi.move (by rw [hpc]; rfl) (fun q hq => by rw [hpc]; exact hq) _ _ _
  · exact hi.move (by rw [hpc]; rfl) (fun _ hp => by cases hp) _ _ _
  · exact hi.publish hpos hpc net
  · have hok : ok = true := hok
    subst hok
    exact hi.mark hpos rfl (Or.inr ⟨rfl, p, by rw [hpc]; rfl⟩) (Or.inl rfl)

theorem OnceInv.monitorStep (hi : OnceInv id s) (hpos : 0 < id) {a : MonitorMove}
    {s' : Gateway V} (hok : MarkSucceeds (V := V) (.monitor a))
    (h : s.monitorStep cfg a = some s') : OnceInv id s' := by
  rcases monitor_cases h with ⟨stepped, rows, -, hidle, hf, rfl⟩ | ⟨r, rows, net, hpc, -, rfl⟩ |
    ⟨r, rows, ok, rfl, hpc, rfl⟩ | ⟨net, l, pc, xs, rfl, hun, hun', hrows, -⟩
  · exact hi.fetch hidle hf
  · exact hi.replay hpc net
  · have hok : ok = true := hok
    subst hok
    exact hi.mark hpos (by rw [hpc]; rfl) (Or.inl rfl)
      (Or.inr ⟨rfl, r, by rw [hpc]; rfl, rfl⟩)
  · refine hi.monitorMove hun ?_ net l
    rcases hrows with hrows | hrows
    · rw [hrows]
    · rw [hrows]
      exact List.nil_sublist _

/-- **Every step keeps each thread to one upload of the row.** -/
theorem OnceInv.step (hpos : 0 < id) (s : Gateway V) (a : GatewayAct V) (s' : Gateway V)
    (hi : OnceInv id s) (hok : MarkSucceeds a) (h : gatewayStep env cfg reg s a = some s') :
    OnceInv id s' := by
  cases a with
  | worker a => exact hi.workerStep hpos hok h
  | monitor a => exact hi.monitorStep hpos hok h

theorem onceInv_start (db₀ : Storage V) : OnceInv id (gatewayStart cfg db₀) where
  live := Nat.zero_le 1
  replayed := Nat.zero_le 1
  known := fun _ hp => (by cases hp)
  held := fun _ hp => (by cases hp)
  fetched := List.nodup_nil
  rows := fun _ hr => (by cases hr)
  worker := fun hp => (by cases hp)
  monitor := fun hp => (by cases hp)

/-! ## Never by both -/

/-- What holds besides of a row no fetch has returned while the worker held it. -/
structure Apart (id : Nat) (s : Gateway V) : Prop where
  apart : published s.uploads .worker id = 0 ∨ published s.uploads .monitor id = 0
  held : ∀ p, s.worker.held s.ctl.db = some (p, id) → published s.uploads .monitor id = 0
  rows : ∀ r ∈ s.monitor.rows, r.row_id = id →
    published s.uploads .worker id = 0 ∧ ∀ p, s.worker.held s.ctl.db ≠ some (p, id)

omit [CDouble V] in
theorem Apart.upload_other (ha : Apart id s) {u : Upload V} (hid : u.row_id ≠ id) :
    Apart id { s with uploads := s.uploads ++ [u] } := by
  have hsame : ∀ t, published (s.uploads ++ [u]) t id = published s.uploads t id := fun t =>
    published_snoc_of_ne _ fun h => hid h.2
  obtain ⟨apart, held, rows⟩ := ha
  constructor
  · exact apart.imp (hsame .worker).trans (hsame .monitor).trans
  · intro p hp
    exact (hsame .monitor).trans (held p hp)
  · intro r hr hid
    exact ⟨(hsame .worker).trans (rows r hr hid).1, (rows r hr hid).2⟩

omit [CDouble V] in
theorem Apart.move (ha : Apart id s) {w : WorkerPc V} {c : Control V}
    (hw : ∀ p, w.held c.db = some (p, id) → s.worker.held s.ctl.db = some (p, id))
    {m : MonitorPc V} (hm : ∀ r ∈ m.rows, r ∈ s.monitor.rows) (net : Net V) (l : Option Thread)
    (ps : List (Telemetry V)) (trail : List (StateEngine V × CommandScheduler V)) :
    Apart id { s with
      worker := w, ctl := c, monitor := m, net := net, lock := l, popped := ps, trail := trail } :=
  ⟨ha.apart, fun p hp => ha.held p (hw p hp), fun r hr hid =>
    ⟨(ha.rows r (hm r hr) hid).1, fun p hp => (ha.rows r (hm r hr) hid).2 p (hw p hp)⟩⟩

theorem Apart.workerStep (ha : Apart id s) (hi : OnceInv id s) (hpos : 0 < id)
    {a : WorkerMove V} {s' : Gateway V} (h : s.workerStep env cfg reg a = some s') :
    Apart id s' := by
  rcases worker_cases h with ⟨p, hpc, rfl⟩ | ⟨pc, c, hl, rfl⟩ | ⟨p, row_id, hpc, rfl⟩ |
    ⟨p, row_id, net, hpc, -, rfl⟩ | ⟨p, row_id, net, hpc, -, rfl⟩ | ⟨p, row_id, ok, -, hpc, rfl⟩
  · exact ha.move (fun _ hp => by cases hp) (fun _ hr => hr) _ _ _ _
  · obtain ⟨-, -, -, ⟨hh, -⟩ | ⟨q, -, -, hh, -⟩⟩ := localStep_cases hl
    · exact ha.move (fun p hp => hh ▸ hp) (fun _ hr => hr) _ _ _ _
    · -- the row just inserted is nobody's yet
      refine { ha with held := fun p hp => ?_, rows := fun r hr hid => ⟨(ha.rows r hr hid).1, ?_⟩ }
      · have hp : pc.held c.db = some (p, id) := hp
        rw [hh, Option.some.injEq, Prod.mk.injEq] at hp
        by_contra hne
        exact Nat.not_succ_le_self _
          (hp.2.trans_le (hi.known .monitor (Nat.pos_of_ne_zero hne)))
      · intro p hp
        have hp : pc.held c.db = some (p, id) := hp
        rw [hh, Option.some.injEq, Prod.mk.injEq] at hp
        exact Nat.not_succ_le_self _ (hp.2.trans_le (hi.rows r hr hid).1)
  · exact ha.move (fun q hq => by rw [hpc]; exact hq) (fun _ hr => hr) _ _ _ _
  · exact ha.move (fun _ hp => by cases hp) (fun _ hr => hr) _ _ _ _
  · by_cases hid : row_id = id
    · subst hid
      have hh : s.worker.held s.ctl.db = some (p, row_id) := by
        rw [hpc]
        exact heldRow_eq_some.mpr ⟨hpos, rfl, rfl⟩
      have hzero : published (s.uploads ++ [⟨.worker, row_id, p⟩]) .monitor row_id = 0 :=
        (published_snoc_of_ne _ fun h => by cases h.1).trans (ha.held p hh)
      exact ⟨Or.inr hzero, fun _ _ => hzero, fun r hr hid => absurd hh ((ha.rows r hr hid).2 p)⟩
    · exact (ha.move (w := if 0 < row_id then .mark p row_id else .idle) (c := s.ctl)
        (fun q hq => absurd hq (held_toMark_ne hid)) (fun _ hr => hr) net none s.popped
        s.trail).upload_other hid
  · exact ha.move (fun _ hp => by cases hp) (fun _ hr => hr) _ _ _ _

theorem Apart.monitorStep (ha : Apart id s) (hi : OnceInv id s) (hpos : 0 < id)
    {a : MonitorMove} {s' : Gateway V} (hok : ¬FetchesHeld cfg id s (.monitor a))
    (h : s.monitorStep cfg a = some s') : Apart id s' := by
  rcases monitor_cases h with ⟨stepped, rows, rfl, -, hf, rfl⟩ | ⟨r, rows, net, hpc, -, rfl⟩ |
    ⟨r, rows, ok, -, hpc, rfl⟩ | ⟨net, l, pc, xs, rfl, -, -, hrows, -⟩
  · refine { ha with rows := fun r hr hid => ?_ }
    have hnot : ∀ p, s.worker.held s.ctl.db ≠ some (p, id) := fun p hp =>
      hok ⟨⟨rows, hf, r, hr, hid⟩, p, hp⟩
    refine ⟨?_, hnot⟩
    -- a row the worker has published is settled, or still in its hand
    by_contra hne
    rcases hi.worker (Nat.pos_of_ne_zero hne) with hset | ⟨p, hu⟩
    · exact not_settled_of_fetch hf hr (hid ▸ hset)
    · exact hnot p (held_of_unmarked hpos hu)
  · have hrows : s.monitor.rows = r :: rows := by rw [hpc]; rfl
    have hrest : ∀ r' ∈ rows, r' ∈ s.monitor.rows := fun r' hr' =>
      hrows ▸ List.mem_cons_of_mem _ hr'
    by_cases hid : r.row_id = id
    · obtain ⟨hzero, hnot⟩ := ha.rows r (hrows ▸ List.mem_cons_self ..) hid
      have hwrk : published (s.uploads ++ [⟨.monitor, r.row_id, r.point⟩]) .worker id = 0 :=
        (published_snoc_of_ne _ fun h => by cases h.1).trans hzero
      exact ⟨Or.inl hwrk, fun p hp => absurd hp (hnot p), fun _ _ _ => ⟨hwrk, hnot⟩⟩
    · exact (ha.move (w := s.worker) (c := s.ctl) (fun _ hp => hp) (m := .marking r rows) hrest net
        s.lock s.popped s.trail).upload_other hid
  · refine ha.move (fun p hp => ?_) (fun r' hr' => by rw [hpc]; exact hr') _ _ _ _
    rw [held_congr (mark_last_insert_rowid _ _ _)] at hp
    exact hp
  · refine ha.move (fun _ hp => hp) (fun r hr => ?_) _ _ _ _
    rcases hrows with hrows | hrows
    · exact hrows ▸ hr
    · rw [hrows] at hr
      cases hr

theorem apart_start (db₀ : Storage V) : Apart id (gatewayStart cfg db₀) :=
  ⟨Or.inl rfl, fun _ _ => rfl, fun _ hr => by cases hr⟩

theorem Apart.step (hpos : 0 < id) (s : Gateway V) (a : GatewayAct V) (s' : Gateway V)
    (ha : Apart id s) (hi : OnceInv id s) (hok : ¬FetchesHeld cfg id s a)
    (h : gatewayStep env cfg reg s a = some s') : Apart id s' := by
  cases a with
  | worker a => exact ha.workerStep hi hpos h
  | monitor a => exact ha.monitorStep hi hpos hok h

end

end

/-- **How often a row is uploaded.** In every run of worker and monitor in which SQLite carries out
    the marks, each of the two threads writes the frame of a row at most once; and a row that no
    fetch returned while the worker was between its insert and its mark is written at most once
    by both together. The uploads counted here are the telemetry frames sent. -/
theorem upload_at_most_once (env : StorageEnv) (cfg : GatewayConfig V) (reg : AdapterRegistry)
    (db₀ : Storage V) (acts : List (GatewayAct V)) (s : Gateway V)
    (h : run (gatewayStep env cfg reg) (gatewayStart cfg db₀) acts = some s)
    (hm : Along (gatewayStep env cfg reg) (fun _ a => MarkSucceeds a) (gatewayStart cfg db₀) acts)
    (id : Nat) (row : TelemetryRow V) (hrow : (id, row) ∈ s.ctl.db.telemetry.rows) :
    published s.uploads .worker id ≤ 1 ∧ published s.uploads .monitor id ≤ 1 ∧
    (Along (gatewayStep env cfg reg) (fun s a => ¬FetchesHeld cfg id s a) (gatewayStart cfg db₀)
        acts → (s.uploads.countP fun u => decide (u.row_id = id)) ≤ 1) ∧
    AreSent cfg s.uploads s.net.messages := by
  have hpos : 0 < id := (s.ctl.db.telemetry.ids _ hrow).1
  have hi : OnceInv id s := run_inv_along (OnceInv.step hpos) (onceInv_start db₀) hm h
  refine ⟨hi.live, hi.replayed, fun hf => ?_, (bookInv_run h).sent⟩
  have hboth : OnceInv id s ∧ Apart id s :=
    run_inv_along (I := fun t => OnceInv id t ∧ Apart id t)
      (fun t a t' ht hok hs =>
        ⟨OnceInv.step hpos t a t' ht.1 hok.1 hs, Apart.step hpos t a t' ht.2 ht.1 hok.2 hs⟩)
      ⟨onceInv_start db₀, apart_start db₀⟩ (hm.and hf) h
  have hlive := hi.live
  have hreplayed := hi.replayed
  rw [← published_add]
  rcases hboth.2.apart with hzero | hzero <;> omega

/-- A sufficient condition on a step, for evaluation: a mark succeeds, and a fetch finds the worker
    with no row in hand. -/
def calmStepB (s : Gateway V) : GatewayAct V → Bool
  | .worker (.mark ok) => ok
  | .monitor (.mark ok) => ok
  | .monitor (.fetch _) => (s.worker.held s.ctl.db).isNone
  | _ => true

omit [CDouble V] in
theorem markSucceeds_of_calm {s : Gateway V} {a : GatewayAct V} (h : calmStepB s a = true) :
    MarkSucceeds a := by
  rcases a with ⟨_ | _ | _ | _ | _⟩ | ⟨_ | _ | _ | _ | _ | _ | _ | _⟩ <;>
    first | exact h | trivial

omit [CDouble V] in
theorem not_fetchesHeld_of_calm {cfg : GatewayConfig V} {id : Nat} {s : Gateway V}
    {a : GatewayAct V} (h : calmStepB s a = true) : ¬FetchesHeld cfg id s a := by
  intro hf
  rcases a with a | ⟨stepped | _ | _ | _ | _ | _ | _ | _⟩
  case monitor.fetch =>
    obtain ⟨-, p, hp⟩ := hf
    rw [calmStepB, hp] at h
    cases h
  all_goals exact hf

/-- The worker's publish fails, and the monitor replays the row it has let go. -/
theorem upload_at_most_once_replayed :
    ∃ s : Gateway ℚ, run defaultStep defaultStart (replayedRun meterReading) = some s ∧
      s.net.messages = [uploadMessage (gatewayConfigDefaults ℚ) meterReading] ∧
      (s.uploads.countP fun u => decide (u.row_id = 1)) ≤ 1 := by
  have hrun : (run defaultStep defaultStart (replayedRun meterReading)).map (fun s =>
      (s.ctl.db.telemetry.rows, s.net.messages)) =
      some ([(1, (telemetryColumns meterReading).setUploaded)],
        [uploadMessage (gatewayConfigDefaults ℚ) meterReading]) := by
    decide +kernel
  have hcalm : Along defaultStep (fun s a => calmStepB s a = true) defaultStart
      (replayedRun meterReading) :=
    along_of_alongB (by decide +kernel)
  obtain ⟨s, h, he⟩ := Option.map_eq_some_iff.mp hrun
  obtain ⟨hrows, hsent⟩ := Prod.mk.inj he
  exact ⟨s, h, hsent, (upload_at_most_once calmEnv (gatewayConfigDefaults ℚ) []
    (storageOpen (gatewayConfigDefaults ℚ)) (replayedRun meterReading) s h
    (hcalm.imp fun _ _ => markSucceeds_of_calm) 1 _
    (hrows ▸ List.mem_singleton.mpr rfl)).2.2.1
    (hcalm.imp fun _ _ => not_fetchesHeld_of_calm)⟩

/-- The monitor fetches the row between the worker's insert and its publish, and replays it after
    the worker has published and marked it. Every statement and every `write` succeeds. -/
def duplicateRun : List (GatewayAct ℚ) :=
  [.worker (.pop meterReading), .worker .own, .monitor (.fetch (some 1))] ++
    List.replicate 4 (.worker .own) ++
    [.worker .lock, .worker (.publish (connectEvents ++ [writeEvent])), .worker (.mark true),
      .monitor .lock, .monitor (.connect []), .monitor (.publish [writeEvent]),
      .monitor (.mark true), .monitor .unlock]

theorem row_uploaded_twice :
    ∃ s : Gateway ℚ, run defaultStep defaultStart duplicateRun = some s ∧
      s.ctl.db.telemetry.rows.map Prod.fst = [1] ∧
      (s.uploads.countP fun u => decide (u.row_id = 1)) = 2 ∧
      s.net.messages = [uploadMessage (gatewayConfigDefaults ℚ) meterReading,
        uploadMessage (gatewayConfigDefaults ℚ) meterReading] := by
  have hrun : (run defaultStep defaultStart duplicateRun).map (fun s =>
      (s.ctl.db.telemetry.rows.map Prod.fst, s.uploads.countP fun u => decide (u.row_id = 1),
        s.net.messages)) =
      some ([1], 2, [uploadMessage (gatewayConfigDefaults ℚ) meterReading,
        uploadMessage (gatewayConfigDefaults ℚ) meterReading]) := by
    decide +kernel
  obtain ⟨s, h, he⟩ := Option.map_eq_some_iff.mp hrun
  obtain ⟨hrows, he⟩ := Prod.mk.inj he
  obtain ⟨hcount, hsent⟩ := Prod.mk.inj he
  exact ⟨s, h, hrows, hcount, hsent⟩

end Proof
end EdgeFlow
