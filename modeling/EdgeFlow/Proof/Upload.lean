import EdgeFlow.Proof.GatewaySteps

/-!
# Upload bookkeeping

A row's id makes a long way: from the insert through the alarm and the command inserts and a
publish that may fail to the mark, while the monitor marks rows of its own. The invariant
follows it. Wherever the worker holds a positive id, the row under it is the row of the point
it holds (`Stored`); wherever the monitor holds a row, it is a row of the table; and whoever is
about to mark has just uploaded that very row.

From this come both directions: **a flag is set only after an upload**, and a row that was never
uploaded is still pending. The record of uploads is not taken on trust: its messages are the
telemetry the session sent, one for one (`AreSent`).

A replay uploads what `storage_fetch_pending_telemetry` makes of a row, and that says GOOD whatever
the row says. So the frame behind a flag shows every column of the row but perhaps the quality, and
the quality too as long as no flag is set for a replay of a row that is not GOOD. `sound` is what is
known of such replays; the induction is the same whatever it is.
-/

set_option autoImplicit false

namespace EdgeFlow
namespace Proof

open Lib

variable {V : Type}

/-! ## The invariant -/

/-- The row under `id` is the row of `p`. -/
def Stored (t : Table (TelemetryRow V)) (p : Telemetry V) (id : Nat) : Prop :=
  ∃ row, (id, row) ∈ t.rows ∧ row.forget = telemetryColumns p

/-- `p` is the point a row was appended for, or was read back from it and is `sound` for the
    quality the row has. -/
def RowPoint (sound : Bytes → Telemetry V → Prop) (id : Nat) (row : TelemetryRow V)
    (p : Telemetry V) : Prop :=
  row.forget = telemetryColumns p ∨ p = (fetchRow (id, row)).point ∧ sound row.quality p

/-- `r` was read back from the table. -/
def Fetched (t : Table (TelemetryRow V)) (r : StorageTelemetryRow V) : Prop :=
  ∃ row, (r.row_id, row) ∈ t.rows ∧ r = fetchRow (r.row_id, row)

/-- What the worker's local variables know of the table. -/
structure WorkerOk (db : Storage V) (uploads : List (Upload V)) (pc : WorkerPc V) :
    Prop where
  held : ∀ p row_id, pc.held db = some (p, row_id) → Stored db.telemetry p row_id
  unmarked : ∀ p row_id, pc.unmarked = some (p, row_id) →
    Stored db.telemetry p row_id ∧ ⟨.worker, row_id, p⟩ ∈ uploads

/-- What the monitor's local variables know of the table. -/
structure MonitorOk (t : Table (TelemetryRow V)) (uploads : List (Upload V))
    (pc : MonitorPc V) : Prop where
  rows : ∀ r ∈ pc.rows, Fetched t r
  unmarked : ∀ r, pc.unmarked = some r →
    Fetched t r ∧ ⟨.monitor, r.row_id, r.point⟩ ∈ uploads

/-- Every flag was there before, or came after an upload of that row's point. -/
def Flagged (sound : Bytes → Telemetry V → Prop) (t₀ t : Table (TelemetryRow V))
    (uploads : List (Upload V)) : Prop :=
  ∀ id row, (id, row) ∈ t.rows → row.uploaded = true →
    (∃ row₀, (id, row₀) ∈ t₀.rows ∧ row₀.uploaded = true) ∨
      ∃ u ∈ uploads, u.row_id = id ∧ RowPoint sound id row u.point

/-- **The uploads are the telemetry sent**: the messages of the session are those of the uploads
    and, besides them, pings and heartbeats only. -/
def AreSent [CDouble V] (cfg : GatewayConfig V) (uploads : List (Upload V))
    (messages : List Sent) : Prop :=
  ∃ others, (uploads.map (fun u => uploadMessage cfg u.point) ++ others).Perm messages ∧
    ∀ x ∈ others, Aside cfg x

/-- Every row was there before, or is the row of a point. -/
def Appended (t₀ t : Table (TelemetryRow V)) : Prop :=
  ∀ id row, (id, row) ∈ t.rows →
    (∃ row₀, (id, row₀) ∈ t₀.rows) ∨ ∃ p, row.forget = telemetryColumns p

/-- A flag that the monitor is about to set is that of a row whose replay is `sound`. -/
def MarkSound (sound : Bytes → Telemetry V → Prop) (s : Gateway V) (a : GatewayAct V) : Prop :=
  ∀ r rows row, a = .monitor (.mark true) → s.monitor = .marking r rows →
    (r.row_id, row) ∈ s.ctl.db.telemetry.rows → row.uploaded = false → sound row.quality r.point

theorem markSound_true (s : Gateway V) (a : GatewayAct V) : MarkSound (fun _ _ => True) s a :=
  fun _ _ _ _ _ _ _ => trivial

structure BookInv [CDouble V] (sound : Bytes → Telemetry V → Prop) (cfg : GatewayConfig V)
    (db₀ : Storage V) (s : Gateway V) : Prop where
  rest : Rest s.net
  cfg_eq : s.net.cfg = cfg
  sent : AreSent cfg s.uploads s.net.messages
  flagged : Flagged sound db₀.telemetry s.ctl.db.telemetry s.uploads
  appended : Appended db₀.telemetry s.ctl.db.telemetry
  worker : WorkerOk s.ctl.db s.uploads s.worker
  monitor : MonitorOk s.ctl.db.telemetry s.uploads s.monitor

/-! ## What stays true while the other thread moves -/

theorem Stored.mono {t t' : Table (TelemetryRow V)} {p : Telemetry V} {id : Nat}
    (h : Stored t p id) (hk : Kept t t') : Stored t' p id := by
  obtain ⟨row, hm, he⟩ := h
  obtain ⟨row', hm', he', -⟩ := hk id row hm
  exact ⟨row', hm', he'.trans he⟩

theorem Fetched.mono {t t' : Table (TelemetryRow V)} {r : StorageTelemetryRow V}
    (h : Fetched t r) (hk : Kept t t') : Fetched t' r := by
  obtain ⟨row, hm, he⟩ := h
  obtain ⟨row', hm', he', -⟩ := hk _ row hm
  exact ⟨row', hm', he.trans (fetchRow_congr he'.symm)⟩

section
variable {sound : Bytes → Telemetry V → Prop}

theorem RowPoint.congr {id : Nat} {row row' : TelemetryRow V} {p : Telemetry V}
    (h : RowPoint sound id row p) (he : row'.forget = row.forget) : RowPoint sound id row' p := by
  rcases h with h | ⟨h, hs⟩
  · exact Or.inl (he.trans h)
  · have hq : row'.quality = row.quality := by
      have := congrArg TelemetryRow.quality he
      exact this
    exact Or.inr ⟨h.trans (congrArg StorageTelemetryRow.point (fetchRow_congr he.symm)),
      hq ▸ hs⟩

theorem WorkerOk.mono {db db' : Storage V} {us us' : List (Upload V)} {pc : WorkerPc V}
    (h : WorkerOk db us pc) (hk : Kept db.telemetry db'.telemetry)
    (hl : db'.last_insert_rowid = db.last_insert_rowid) (hu : ∀ u ∈ us, u ∈ us') :
    WorkerOk db' us' pc := by
  refine ⟨fun p row_id hp => ?_, fun p row_id hp => ?_⟩
  · rw [held_congr hl] at hp
    exact (h.held p row_id hp).mono hk
  · obtain ⟨hs, hm⟩ := h.unmarked p row_id hp
    exact ⟨hs.mono hk, hu _ hm⟩

/-- A worker between two points knows nothing. -/
theorem WorkerOk.of_none {db : Storage V} {us : List (Upload V)} {pc : WorkerPc V}
    (hh : pc.held db = none) (hu : pc.unmarked = none) : WorkerOk db us pc := by
  refine ⟨fun p row_id hp => ?_, fun p row_id hp => ?_⟩
  · rw [hh] at hp
    cases hp
  · rw [hu] at hp
    cases hp

theorem MonitorOk.mono {t t' : Table (TelemetryRow V)} {us us' : List (Upload V)}
    {pc : MonitorPc V} (h : MonitorOk t us pc) (hk : Kept t t') (hu : ∀ u ∈ us, u ∈ us') :
    MonitorOk t' us' pc :=
  ⟨fun r hr => (h.rows r hr).mono hk,
    fun r hr => ⟨(h.unmarked r hr).1.mono hk, hu _ (h.unmarked r hr).2⟩⟩

theorem Flagged.mono {t₀ t : Table (TelemetryRow V)} {us us' : List (Upload V)}
    (h : Flagged sound t₀ t us) (hu : ∀ u ∈ us, u ∈ us') : Flagged sound t₀ t us' := by
  intro id row hm hup
  rcases h id row hm hup with h₀ | ⟨u, hm, hid, hrp⟩
  · exact Or.inl h₀
  · exact Or.inr ⟨u, hu u hm, hid, hrp⟩

/-- A fresh row has no flag. -/
theorem Flagged.insert {t₀ t : Table (TelemetryRow V)} {us : List (Upload V)}
    (h : Flagged sound t₀ t us) (p : Telemetry V) :
    Flagged sound t₀ (t.insert (telemetryColumns p)) us := by
  intro id row hm hup
  rcases Table.mem_insert.mp hm with hm | hm
  · exact h id row hm hup
  · cases hm
    cases hup

/-- **A mark is covered by an upload** if the row under its id is the row of an uploaded point, or
    has its flag already. -/
theorem Flagged.mark {t₀ : Table (TelemetryRow V)} {db : Storage V}
    {us : List (Upload V)} {u : Upload V} {ok : Bool}
    (h : Flagged sound t₀ db.telemetry us) (hu : u ∈ us)
    (hrow : ok = true → ∃ row, (u.row_id, row) ∈ db.telemetry.rows ∧
      (row.uploaded = false → RowPoint sound u.row_id row u.point)) :
    Flagged sound t₀ (storageMarkTelemetryUploaded db u.row_id ok).2.telemetry us := by
  rcases storageMarkTelemetryUploaded_cases db u.row_id ok with hm | ⟨-, -, hok, hm⟩
  · rw [hm]
    exact h
  · rw [hm]
    intro id row hmem hup
    obtain ⟨⟨id', row'⟩, hq, he⟩ := Table.mem_update.mp hmem
    by_cases hid : id' = u.row_id
    · -- the row that was just flagged
      simp only [Table.updateRow, if_pos hid, Prod.mk.injEq] at he
      obtain ⟨rfl, rfl⟩ := he
      obtain ⟨row₁, hm₁, hrp⟩ := hrow hok
      have hsame : row' = row₁ := congrArg Prod.snd (Table.eq_of_id_eq hq hm₁ hid)
      cases hold : row'.uploaded with
      | false =>
        rw [hsame] at hold
        rw [hid]
        exact Or.inr ⟨u, hu, rfl, (hrp hold).congr (by rw [hsame]; rfl)⟩
      | true =>
        rcases h id' row' hq hold with h₀ | ⟨u', hu', hid', hrp'⟩
        · exact Or.inl h₀
        · exact Or.inr ⟨u', hu', hid', hrp'.congr rfl⟩
    · simp only [Table.updateRow, if_neg hid, Prod.mk.injEq] at he
      obtain ⟨rfl, rfl⟩ := he
      exact h _ _ hq hup

end

theorem Appended.insert {t₀ t : Table (TelemetryRow V)} (h : Appended t₀ t) (p : Telemetry V) :
    Appended t₀ (t.insert (telemetryColumns p)) := by
  intro id row hm
  rcases Table.mem_insert.mp hm with hm | hm
  · exact h id row hm
  · cases hm
    exact Or.inr ⟨p, rfl⟩

theorem Appended.mark {t₀ : Table (TelemetryRow V)} {db : Storage V} (h : Appended t₀ db.telemetry)
    (row_id : Nat) (ok : Bool) :
    Appended t₀ (storageMarkTelemetryUploaded db row_id ok).2.telemetry := by
  rcases storageMarkTelemetryUploaded_cases db row_id ok with hm | ⟨-, -, -, hm⟩
  · rw [hm]
    exact h
  · rw [hm]
    intro id row hmem
    obtain ⟨⟨id', row'⟩, hq, he⟩ := Table.mem_update.mp hmem
    have hold := h id' row' hq
    unfold Table.updateRow at he
    split at he
    · cases he
      exact hold
    · cases he
      exact hold

theorem mark_last_insert_rowid (db : Storage V) (row_id : Nat) (ok : Bool) :
    (storageMarkTelemetryUploaded db row_id ok).2.last_insert_rowid = db.last_insert_rowid := by
  rcases storageMarkTelemetryUploaded_cases db row_id ok with h | ⟨-, -, -, h⟩ <;> rw [h]

/-! ## Every step -/

variable [CDouble V]

section
variable {env : StorageEnv} {cfg : GatewayConfig V} {reg : AdapterRegistry}
  {sound : Bytes → Telemetry V → Prop}

theorem localStep_kept {c c' : Control V} {pc pc' : WorkerPc V}
    (h : localStep env cfg reg c pc = some (pc', c')) :
    Kept c.db.telemetry c'.db.telemetry := by
  obtain ⟨-, -, -, ⟨-, ht⟩ | ⟨p, -, -, -, ht⟩⟩ := localStep_cases h
  · rw [ht]
    exact Kept.refl _
  · rw [ht]
    exact Kept.insert _ _

/-- **The id stays with its point**: the row the worker takes up is the one it inserted. -/
theorem WorkerOk.localStep {c c' : Control V} {pc pc' : WorkerPc V}
    {us : List (Upload V)} (hw : WorkerOk c.db us pc)
    (h : localStep env cfg reg c pc = some (pc', c')) : WorkerOk c'.db us pc' := by
  obtain ⟨-, -, hun, hcase⟩ := localStep_cases h
  refine ⟨fun p row_id hp => ?_, fun p row_id hp => ?_⟩
  · rcases hcase with ⟨hh, ht⟩ | ⟨q, -, -, hh, ht⟩
    · rw [hh] at hp
      rw [ht]
      exact hw.held p row_id hp
    · rw [hh] at hp
      cases hp
      rw [ht]
      exact ⟨telemetryColumns p, Table.mem_insert.mpr (Or.inr rfl), rfl⟩
  · rw [hun] at hp
    cases hp

theorem Flagged.localStep {t₀ : Table (TelemetryRow V)} {us : List (Upload V)}
    {c c' : Control V} {pc pc' : WorkerPc V} (hf : Flagged sound t₀ c.db.telemetry us)
    (h : localStep env cfg reg c pc = some (pc', c')) : Flagged sound t₀ c'.db.telemetry us := by
  obtain ⟨-, -, -, ⟨-, ht⟩ | ⟨p, -, -, -, ht⟩⟩ := localStep_cases h
  · rw [ht]
    exact hf
  · rw [ht]
    exact hf.insert p

theorem Appended.localStep {t₀ : Table (TelemetryRow V)} {c c' : Control V}
    {pc pc' : WorkerPc V} (ha : Appended t₀ c.db.telemetry)
    (h : localStep env cfg reg c pc = some (pc', c')) : Appended t₀ c'.db.telemetry := by
  obtain ⟨-, -, -, ⟨-, ht⟩ | ⟨p, -, -, -, ht⟩⟩ := localStep_cases h
  · rw [ht]
    exact ha
  · rw [ht]
    exact ha.insert p

section
variable {db₀ : Storage V} {s : Gateway V}

/-- A session call that uploads nothing. -/
theorem BookInv.serve (hi : BookInv sound cfg db₀ s) {net : Net V} {xs : List Sent}
    (hs : Serves s.net net xs) (hx : ∀ x ∈ xs, Aside s.net.cfg x) :
    Rest net ∧ net.cfg = cfg ∧ AreSent cfg s.uploads net.messages := by
  obtain ⟨hr, ha⟩ := hs hi.rest
  refine ⟨hr, ha.cfg.trans hi.cfg_eq, ?_⟩
  obtain ⟨others, hperm, hothers⟩ := hi.sent
  rw [hi.cfg_eq] at hx
  refine ⟨others ++ xs, ?_, fun x hm => ?_⟩
  · rw [ha.messages, ← List.append_assoc]
    exact hperm.append_right xs
  · rcases List.mem_append.mp hm with hm | hm
    · exact hothers x hm
    · exact hx x hm

/-- A session call that uploads a point. -/
theorem BookInv.upload (hi : BookInv sound cfg db₀ s) {net : Net V} (u : Upload V)
    (hs : Serves s.net net [uploadMessage s.net.cfg u.point]) :
    Rest net ∧ net.cfg = cfg ∧ AreSent cfg (s.uploads ++ [u]) net.messages := by
  obtain ⟨hr, ha⟩ := hs hi.rest
  refine ⟨hr, ha.cfg.trans hi.cfg_eq, ?_⟩
  obtain ⟨others, hperm, hothers⟩ := hi.sent
  refine ⟨others, ?_, hothers⟩
  rw [ha.messages, hi.cfg_eq, List.map_append, List.append_assoc]
  refine List.Perm.trans ?_ (hperm.append_right _)
  rw [List.append_assoc]
  exact List.Perm.append_left _ List.perm_append_comm

/-- A mark by either thread, of a row whose point has been uploaded. -/
theorem BookInv.marked (hi : BookInv sound cfg db₀ s) {u : Upload V} {ok : Bool}
    (hu : u ∈ s.uploads)
    (hrow : ok = true → ∃ row, (u.row_id, row) ∈ s.ctl.db.telemetry.rows ∧
      (row.uploaded = false → RowPoint sound u.row_id row u.point))
    {w : WorkerPc V} {m : MonitorPc V} (hw : WorkerOk s.ctl.db s.uploads w)
    (hm : MonitorOk s.ctl.db.telemetry s.uploads m) :
    BookInv sound cfg db₀ { s with
      worker := w
      monitor := m
      ctl := { s.ctl with db := (storageMarkTelemetryUploaded s.ctl.db u.row_id ok).2 } } :=
  { hi with
    flagged := hi.flagged.mark hu hrow
    appended := hi.appended.mark _ _
    worker := hw.mono (kept_mark _ _ _) (mark_last_insert_rowid _ _ _) fun _ h => h
    monitor := hm.mono (kept_mark _ _ _) fun _ h => h }

theorem BookInv.workerStep {s' : Gateway V} {a : WorkerMove V} (hi : BookInv sound cfg db₀ s)
    (h : s.workerStep env cfg reg a = some s') : BookInv sound cfg db₀ s' := by
  have hw := hi.worker
  rcases worker_cases h with ⟨p, -, rfl⟩ | ⟨pc, c, hl, rfl⟩ | ⟨p, row_id, hpc, rfl⟩ |
    ⟨p, row_id, net, hpc, hs, rfl⟩ | ⟨p, row_id, net, hpc, hs, rfl⟩ | ⟨p, row_id, ok, -, hpc, rfl⟩
  · exact { hi with worker := WorkerOk.of_none rfl rfl }
  · exact { hi with
      worker := hw.localStep hl
      monitor := hi.monitor.mono (localStep_kept hl) fun _ h => h
      flagged := hi.flagged.localStep hl
      appended := hi.appended.localStep hl }
  · rw [hpc] at hw
    exact { hi with worker := ⟨hw.held, fun p row_id hp => by cases hp⟩ }
  · obtain ⟨hr, hc, hsent⟩ := hi.serve hs (aside_nil _)
    exact { hi with rest := hr, cfg_eq := hc, sent := hsent, worker := WorkerOk.of_none rfl rfl }
  · rw [hpc] at hw
    obtain ⟨hr, hc, hsent⟩ := hi.upload ⟨.worker, row_id, p⟩ hs
    have hgrow : ∀ u ∈ s.uploads, u ∈ s.uploads ++ [⟨.worker, row_id, p⟩] := fun u h =>
      List.mem_append_left _ h
    refine ⟨hr, hc, hsent, hi.flagged.mono hgrow, hi.appended, ?_,
      hi.monitor.mono (Kept.refl _) hgrow⟩
    show WorkerOk _ _ (if 0 < row_id then WorkerPc.mark p row_id else .idle)
    split
    · rename_i hpos
      refine ⟨hw.held, fun p' row_id' hp => ?_⟩
      cases hp
      exact ⟨hw.held p row_id (heldRow_eq_some.mpr ⟨hpos, rfl, rfl⟩),
        List.mem_append_right _ (List.mem_singleton.mpr rfl)⟩
    · exact WorkerOk.of_none rfl rfl
  · rw [hpc] at hw
    obtain ⟨⟨row, hm, he⟩, hu⟩ := hw.unmarked p row_id rfl
    exact hi.marked hu (fun _ => ⟨row, hm, fun _ => Or.inl he⟩) (WorkerOk.of_none rfl rfl)
      hi.monitor

theorem BookInv.monitorStep {s' : Gateway V} {a : MonitorMove} (hi : BookInv sound cfg db₀ s)
    (hok : MarkSound sound s (.monitor a)) (h : s.monitorStep cfg a = some s') :
    BookInv sound cfg db₀ s' := by
  have hm := hi.monitor
  rcases monitor_cases h with ⟨stepped, rows, -, -, hf, rfl⟩ | ⟨r, rows, net, hpc, hs, rfl⟩ |
    ⟨r, rows, ok, rfl, hpc, rfl⟩ | ⟨net, l, pc, xs, rfl, -, hun, hrows, hs, hx⟩
  · refine { hi with monitor := ⟨fun r hr => ?_, fun r hr => by cases hr⟩ }
    obtain ⟨row, hrow, -, he⟩ := mem_fetch hf hr
    exact ⟨row, hrow, he⟩
  · rw [hpc] at hm
    obtain ⟨hr, hc, hsent⟩ := hi.upload ⟨.monitor, r.row_id, r.point⟩ hs
    have hgrow : ∀ u ∈ s.uploads, u ∈ s.uploads ++ [⟨.monitor, r.row_id, r.point⟩] :=
      fun u h => List.mem_append_left _ h
    refine ⟨hr, hc, hsent, hi.flagged.mono hgrow, hi.appended,
      hi.worker.mono (Kept.refl _) rfl hgrow, ?_⟩
    refine ⟨fun r' hr' => hm.rows r' (List.mem_cons_of_mem _ hr'), fun r' hr' => ?_⟩
    cases hr'
    exact ⟨hm.rows r (List.mem_cons_self ..), List.mem_append_right _ (List.mem_singleton.mpr rfl)⟩
  · rw [hpc] at hm
    obtain ⟨⟨row, hrow, he⟩, hu⟩ := hm.unmarked r rfl
    refine hi.marked hu (fun hset => ⟨row, hrow, fun hup => Or.inr ?_⟩) hi.worker ?_
    · subst hset
      exact ⟨congrArg StorageTelemetryRow.point he, hok r rows row rfl hpc hrow hup⟩
    exact ⟨hm.rows, fun r' hr' => by cases hr'⟩
  · obtain ⟨hr, hc, hsent⟩ := hi.serve hs hx
    refine { hi with rest := hr, cfg_eq := hc, sent := hsent, monitor := ⟨?_, ?_⟩ }
    · intro r hr'
      rcases hrows with hrows | hrows
      · exact hm.rows r (hrows ▸ hr')
      · rw [hrows] at hr'
        cases hr'
    · intro r hr'
      rw [hun] at hr'
      cases hr'

/-- **Every step of either thread keeps the bookkeeping.** -/
theorem BookInv.step (s : Gateway V) (a : GatewayAct V) (s' : Gateway V)
    (hi : BookInv sound cfg db₀ s) (hok : MarkSound sound s a)
    (h : gatewayStep env cfg reg s a = some s') : BookInv sound cfg db₀ s' := by
  cases a with
  | worker a => exact hi.workerStep h
  | monitor a => exact hi.monitorStep hok h

theorem bookInv_start : BookInv sound cfg db₀ (gatewayStart cfg db₀) where
  rest := rest_init cfg mainSignals
  cfg_eq := rfl
  sent := ⟨[], List.Perm.refl _, aside_nil cfg⟩
  flagged := fun id row hm hup => Or.inl ⟨row, hm, hup⟩
  appended := fun id row hm => Or.inl ⟨row, hm⟩
  worker := WorkerOk.of_none rfl rfl
  monitor := ⟨fun r hr => (by cases hr), fun r hr => (by cases hr)⟩

theorem bookInv_along {acts : List (GatewayAct V)}
    (hok : Along (gatewayStep env cfg reg) (MarkSound sound) (gatewayStart cfg db₀) acts)
    (h : run (gatewayStep env cfg reg) (gatewayStart cfg db₀) acts = some s) :
    BookInv sound cfg db₀ s :=
  run_inv_along BookInv.step bookInv_start hok h

/-- Over every run, nothing is known of the quality a replay shows. -/
theorem bookInv_run {acts : List (GatewayAct V)}
    (h : run (gatewayStep env cfg reg) (gatewayStart cfg db₀) acts = some s) :
    BookInv (fun _ _ => True) cfg db₀ s :=
  bookInv_along (along_of_forall fun a _ s => markSound_true s a) h

/-! ## Rows and flags stay -/

theorem gatewayStep_kept (s : Gateway V) (a : GatewayAct V) (s' : Gateway V)
    (h : gatewayStep env cfg reg s a = some s') :
    Kept s.ctl.db.telemetry s'.ctl.db.telemetry := by
  cases a with
  | worker a =>
    rcases worker_cases h with ⟨p, -, rfl⟩ | ⟨pc, c, hl, rfl⟩ | ⟨p, row_id, -, rfl⟩ |
      ⟨p, row_id, net, -, -, rfl⟩ | ⟨p, row_id, net, -, -, rfl⟩ | ⟨p, row_id, ok, -, -, rfl⟩
    · exact Kept.refl _
    · exact localStep_kept hl
    · exact Kept.refl _
    · exact Kept.refl _
    · exact Kept.refl _
    · exact kept_mark _ _ _
  | monitor a =>
    rcases monitor_cases h with ⟨_, rows, -, -, -, rfl⟩ | ⟨r, rows, net, -, -, rfl⟩ |
      ⟨r, rows, ok, -, -, rfl⟩ | ⟨net, l, pc, xs, rfl, -⟩
    · exact Kept.refl _
    · exact Kept.refl _
    · exact kept_mark _ _ _
    · exact Kept.refl _

/-- **No run removes a row or takes back a flag.** -/
theorem kept_run {acts : List (GatewayAct V)} {s' : Gateway V}
    (h : run (gatewayStep env cfg reg) s acts = some s') :
    Kept s.ctl.db.telemetry s'.ctl.db.telemetry :=
  run_rel (R := fun a b : Gateway V => Kept a.ctl.db.telemetry b.ctl.db.telemetry)
    (fun _ => Kept.refl _) (fun _ _ _ h₁ h₂ => h₁.trans h₂) gatewayStep_kept h

/-- A step that uploads leaves the store alone. -/
theorem uploads_or_ctl {a : GatewayAct V} {s' : Gateway V}
    (h : gatewayStep env cfg reg s a = some s') :
    s'.ctl = s.ctl ∨ (s'.uploads = s.uploads ∧ s'.net = s.net) := by
  cases a with
  | worker a =>
    rcases worker_cases h with ⟨p, -, rfl⟩ | ⟨pc, c, -, rfl⟩ | ⟨p, row_id, -, rfl⟩ |
      ⟨p, row_id, net, -, -, rfl⟩ | ⟨p, row_id, net, -, -, rfl⟩ | ⟨p, row_id, ok, -, -, rfl⟩
    · exact Or.inl rfl
    · exact Or.inr ⟨rfl, rfl⟩
    · exact Or.inl rfl
    · exact Or.inl rfl
    · exact Or.inl rfl
    · exact Or.inr ⟨rfl, rfl⟩
  | monitor a =>
    rcases monitor_cases h with ⟨_, rows, -, -, -, rfl⟩ | ⟨r, rows, net, -, -, rfl⟩ |
      ⟨r, rows, ok, -, -, rfl⟩ | ⟨net, l, pc, xs, rfl, -⟩
    · exact Or.inl rfl
    · exact Or.inl rfl
    · exact Or.inr ⟨rfl, rfl⟩
    · exact Or.inl rfl

/-! ## Uploaded means accepted by the socket -/

/-- `mqtt_write_all` has taken the whole frame of `x`: it is a frame, and it stands in the bytes
    some connection accepted. -/
def Accepted (net : Net V) (x : Sent) : Prop :=
  ∃ i c, (i, x) ∈ net.sends ∧ net.conns[i]? = some c ∧ Lib.Mqtt.IsFrame x.bytes x.packet ∧
    x.bytes <:+: c.sent

omit [CDouble V] in
theorem Rest.accepted {net : Net V} (hr : Rest net) {x : Sent} (hx : x ∈ net.messages) :
    Accepted net x := by
  obtain ⟨⟨i, y⟩, hs, rfl⟩ := List.mem_map.mp (List.mem_filter.mp hx).1
  obtain ⟨⟨b, cl⟩, hv⟩ := Option.isSome_iff_exists.mp (hr.core.fresh (i, y) hs)
  obtain ⟨c, hc, he⟩ := Option.map_eq_some_iff.mp hv
  obtain ⟨tail, hst⟩ := hr.core.streams i b cl hv
  have hon : y ∈ net.sendsOn i := List.mem_filterMap.mpr ⟨(i, y), hs, by simp⟩
  have hb : c.sent = b := congrArg Prod.fst he
  refine ⟨i, c, hs, hc, isFrame_of_fits (hst.fits y hon), ?_⟩
  obtain ⟨before, after, hsplit⟩ := List.append_of_mem hon
  refine ⟨(before.map Sent.bytes).flatten, (after.map Sent.bytes).flatten ++ tail, ?_⟩
  rw [hb, hst.split, hsplit]
  simp

/-- A frame that shows `p`, for the row `id`, has been accepted. -/
def Uploaded (cfg : GatewayConfig V) (s : Gateway V) (id : Nat) (p : Telemetry V) : Prop :=
  ∃ u ∈ s.uploads, u.row_id = id ∧ uploadMessage cfg u.point = uploadMessage cfg p ∧
    Accepted s.net (uploadMessage cfg p)

omit [CDouble V] in
theorem qualityToString_inj {q q' : TelemetryQuality}
    (h : telemetryQualityToString q = telemetryQualityToString q') : q = q' := by
  cases q <;> cases q' <;> first | rfl | cases h

/-- **Points of the same row show the same.** -/
theorem uploadMessage_columns {p q : Telemetry V} (h : telemetryColumns p = telemetryColumns q) :
    uploadMessage cfg p = uploadMessage cfg q := by
  have hts : p.ts_ms = q.ts_ms := by
    have := congrArg Int64.toUInt64 (congrArg TelemetryRow.ts_ms h)
    exact this
  have hdevice : p.device_id.bytes = q.device_id.bytes := congrArg TelemetryRow.device_id h
  have hpoint : p.point_id.bytes = q.point_id.bytes := congrArg TelemetryRow.point_id h
  have hvalue : p.value = q.value := congrArg TelemetryRow.value h
  have hunit : p.unit.bytes = q.unit.bytes := congrArg TelemetryRow.unit h
  have hquality : p.quality = q.quality :=
    qualityToString_inj (congrArg TelemetryRow.quality h)
  simp only [uploadMessage, telemetryToJson, telemetryJsonHead, hts, hdevice, hpoint, hvalue, hunit,
    hquality]

omit [CDouble V] in
/-- The point a replay makes of the row of `p`. -/
theorem fetchRow_forget {id : Nat} {row : TelemetryRow V} {p : Telemetry V}
    (h : row.forget = telemetryColumns p) :
    (fetchRow (id, row)).point = { p with quality := .good, source_id := 0 } := by
  have hsame : fetchRow (id, row) = fetchRow (id, telemetryColumns p) := fetchRow_congr h
  rw [hsame, fetchRow_telemetryColumns]

/-- What was uploaded for the row of `p` is `p`, or the GOOD point a replay makes of it. -/
theorem RowPoint.message {id : Nat} {row : TelemetryRow V} {p q : Telemetry V}
    (h : RowPoint sound id row q) (cfg : GatewayConfig V) (hp : row.forget = telemetryColumns p) :
    uploadMessage cfg q = uploadMessage cfg p ∨
      uploadMessage cfg q = uploadMessage cfg { p with quality := .good } ∧
        sound (telemetryQualityToString p.quality) { p with quality := .good, source_id := 0 } := by
  rcases h with h | ⟨rfl, hs⟩
  · exact Or.inl (uploadMessage_columns (h.symm.trans hp))
  · have hq : row.quality = telemetryQualityToString p.quality := by
      have := congrArg TelemetryRow.quality hp
      exact this
    rw [fetchRow_forget hp, hq] at hs
    rw [fetchRow_forget hp]
    exact Or.inr ⟨rfl, hs⟩

/-- A frame for the row of `p` has been accepted: one that shows `p`, or the GOOD one of a replay
    that is `sound`. -/
def Covered (sound : Bytes → Telemetry V → Prop) (cfg : GatewayConfig V) (s : Gateway V) (id : Nat)
    (p : Telemetry V) : Prop :=
  Uploaded cfg s id p ∨ Uploaded cfg s id { p with quality := .good } ∧
    sound (telemetryQualityToString p.quality) { p with quality := .good, source_id := 0 }

theorem BookInv.covered (hi : BookInv sound cfg db₀ s) {u : Upload V} (hu : u ∈ s.uploads)
    {id : Nat} {row : TelemetryRow V} {p : Telemetry V} (hid : u.row_id = id)
    (hrp : RowPoint sound id row u.point) (hp : row.forget = telemetryColumns p) :
    Covered sound cfg s id p := by
  obtain ⟨others, hperm, -⟩ := hi.sent
  have hsent : uploadMessage cfg u.point ∈ s.net.messages :=
    hperm.subset (List.mem_append_left _ (List.mem_map.mpr ⟨u, hu, rfl⟩))
  have hacc := hi.rest.accepted hsent
  rcases hrp.message cfg hp with hm | ⟨hm, hs⟩
  · exact Or.inl ⟨u, hu, hid, hm, hm ▸ hacc⟩
  · exact Or.inr ⟨⟨u, hu, hid, hm, hm ▸ hacc⟩, hs⟩

theorem BookInv.uploaded (hi : BookInv sound cfg db₀ s) {id : Nat} {row : TelemetryRow V}
    {p : Telemetry V} (hm : (id, row) ∈ s.ctl.db.telemetry.rows) (hup : row.uploaded = true)
    (hp : row.forget = telemetryColumns p) :
    (∃ row₀, (id, row₀) ∈ db₀.telemetry.rows ∧ row₀.uploaded = true) ∨
      Covered sound cfg s id p := by
  rcases hi.flagged id row hm hup with h₀ | ⟨u, hu, hid, hrp⟩
  · exact Or.inl h₀
  · exact Or.inr (hi.covered hu hid hrp hp)

/-- **The frame is accepted before the flag is set.** -/
theorem BookInv.uploaded_before (hi : BookInv sound cfg db₀ s)
    (hk : Kept db₀.telemetry s.ctl.db.telemetry) {a : GatewayAct V} {s' : Gateway V}
    (hok : MarkSound sound s a) (h : gatewayStep env cfg reg s a = some s') {id : Nat}
    {row : TelemetryRow V} {p : Telemetry V} (hm : (id, row) ∈ s'.ctl.db.telemetry.rows)
    (hup : row.uploaded = true) (hp : row.forget = telemetryColumns p) :
    (∃ row', (id, row') ∈ s.ctl.db.telemetry.rows ∧ row'.uploaded = true) ∨
      Covered sound cfg s id p := by
  rcases uploads_or_ctl h with hctl | ⟨hu, hnet⟩
  · rw [hctl] at hm
    exact Or.inl ⟨row, hm, hup⟩
  · rcases (hi.step s a s' hok h).flagged id row hm hup with ⟨row₀, hm₀, hup₀⟩ |
      ⟨u, hmem, hid, hrp⟩
    · obtain ⟨row', hm', -, hkeep⟩ := hk id row₀ hm₀
      exact Or.inl ⟨row', hm', hkeep hup₀⟩
    · rw [hu] at hmem
      exact Or.inr (hi.covered hmem hid hrp hp)

end

end

/-! ## Pending rows -/

omit [CDouble V] in
/-- A fetch that may return every pending row returns them all. -/
theorem fetch_all {db : Storage V} (hsql : db.use_sqlite = true) {max_rows k : Nat}
    (hmax : (pendingRows db.telemetry).length ≤ max_rows)
    (hk : (pendingRows db.telemetry).length ≤ k) :
    storageFetchPendingTelemetry db max_rows (some k) =
      some ((pendingRows db.telemetry).map fetchRow) := by
  cases max_rows with
  | zero =>
    have hnil : pendingRows db.telemetry = [] := List.length_eq_zero_iff.mp (Nat.le_zero.mp hmax)
    simp [storageFetchPendingTelemetry, hnil]
  | succ n =>
    rw [fetch_first hsql (Nat.succ_pos n) ((Nat.min_le_right _ _).trans hk),
      List.take_of_length_le hmax]

/-- What a replay must know to show the row: the quality column says GOOD, or the text is cut
    before it gets there. -/
def ShowsQuality (quality : Bytes) (p : Telemetry V) : Prop :=
  quality = ascii "good" ∨ 384 - 1 ≤ (telemetryJsonHead p).length

instance (quality : Bytes) (p : Telemetry V) : Decidable (ShowsQuality quality p) :=
  inferInstanceAs (Decidable (_ ∨ _))

theorem Covered.uploaded {cfg : GatewayConfig V} {s : Gateway V} {id : Nat} {p : Telemetry V}
    (h : Covered ShowsQuality cfg s id p) : Uploaded cfg s id p := by
  rcases h with h | ⟨h, hs⟩
  · exact h
  · have hshown : p.quality = .good ∨ 384 - 1 ≤ (telemetryJsonHead p).length := by
      rcases hs with hq | hlen
      · exact Or.inl (qualityToString_inj hq)
      · exact Or.inr hlen
    have hsame : uploadMessage cfg { p with quality := .good } = uploadMessage cfg p :=
      congrArg (Sent.publish _) ((telemetryToJson_good_eq_iff p 384).mpr hshown)
    obtain ⟨u, hu, hid, hm, hacc⟩ := h
    exact ⟨u, hu, hid, hm.trans hsame, hsame ▸ hacc⟩

/-- A flag was in `db₀`, or has the row's frame behind it. -/
theorem Covered.of_any {cfg : GatewayConfig V} {s : Gateway V} {id : Nat} {p : Telemetry V}
    (h : Covered (fun _ _ => True) cfg s id p) :
    Uploaded cfg s id p ∨ Uploaded cfg s id { p with quality := .good } :=
  h.imp_right And.left

/-- **Upload bookkeeping.** In every state that worker and monitor reach from a store `db₀`,
    whatever fails on the way: every row was in `db₀` or is that of a point; a flag of the row of
    `p` was in `db₀` or has an accepted frame behind it, which shows `p` or, from a replay, `p` as
    GOOD, and it shows `p` itself if no flag was set for a replay that shows another quality than
    the row has; the frame was accepted before the step that set the flag; no row is lost and no
    flag taken back, up to now and from now on; and a row that was never published is still
    pending, counted and fetched. -/
theorem upload_bookkeeping (env : StorageEnv) (cfg : GatewayConfig V) (reg : AdapterRegistry)
    (db₀ : Storage V) (acts : List (GatewayAct V)) (s : Gateway V)
    (h : run (gatewayStep env cfg reg) (gatewayStart cfg db₀) acts = some s) :
    AreSent cfg s.uploads s.net.messages ∧
    (∀ id row, (id, row) ∈ s.ctl.db.telemetry.rows →
      (∃ row₀, (id, row₀) ∈ db₀.telemetry.rows) ∨ ∃ p, row.forget = telemetryColumns p) ∧
    (Along (gatewayStep env cfg reg) (MarkSound ShowsQuality) (gatewayStart cfg db₀) acts →
      (∀ id row p, (id, row) ∈ s.ctl.db.telemetry.rows → row.uploaded = true →
        row.forget = telemetryColumns p →
        (∃ row₀, (id, row₀) ∈ db₀.telemetry.rows ∧ row₀.uploaded = true) ∨
          Uploaded cfg s id p) ∧
      ∀ a s', MarkSound ShowsQuality s a → gatewayStep env cfg reg s a = some s' →
        ∀ id row p, (id, row) ∈ s'.ctl.db.telemetry.rows → row.uploaded = true →
          row.forget = telemetryColumns p →
          (∃ row', (id, row') ∈ s.ctl.db.telemetry.rows ∧ row'.uploaded = true) ∨
            Uploaded cfg s id p) ∧
    (∀ a s', gatewayStep env cfg reg s a = some s' →
      ∀ id row p, (id, row) ∈ s'.ctl.db.telemetry.rows → row.uploaded = true →
        row.forget = telemetryColumns p →
        (∃ row', (id, row') ∈ s.ctl.db.telemetry.rows ∧ row'.uploaded = true) ∨
          Uploaded cfg s id p ∨ Uploaded cfg s id { p with quality := .good }) ∧
    Kept db₀.telemetry s.ctl.db.telemetry ∧
    (∀ more s', run (gatewayStep env cfg reg) s more = some s' →
      Kept s.ctl.db.telemetry s'.ctl.db.telemetry) ∧
    (∀ id row, (id, row) ∈ s.ctl.db.telemetry.rows → (∀ u ∈ s.uploads, u.row_id ≠ id) →
      (∀ row₀, (id, row₀) ∈ db₀.telemetry.rows → row₀.uploaded = false) →
      row.uploaded = false ∧ (id, row) ∈ pendingRows s.ctl.db.telemetry ∧
        (s.ctl.db.use_sqlite = true →
          storagePendingTelemetryCount s.ctl.db = (pendingRows s.ctl.db.telemetry).length ∧
          ∀ max_rows k, (pendingRows s.ctl.db.telemetry).length ≤ max_rows →
            (pendingRows s.ctl.db.telemetry).length ≤ k →
            ∃ rows, storageFetchPendingTelemetry s.ctl.db max_rows (some k) = some rows ∧
              fetchRow (id, row) ∈ rows)) := by
  have hi := bookInv_run h
  have hk : Kept db₀.telemetry s.ctl.db.telemetry := kept_run h
  refine ⟨hi.sent, hi.appended, fun hok => ?_, fun a s' hs id row p hm hup hp => ?_, hk,
    fun more s' hs => kept_run hs, fun id row hm hnone hold => ?_⟩
  · have hi := bookInv_along hok h
    exact ⟨fun id row p hm hup hp => (hi.uploaded hm hup hp).imp_right Covered.uploaded,
      fun a s' ha hs id row p hm hup hp =>
        (hi.uploaded_before hk ha hs hm hup hp).imp_right Covered.uploaded⟩
  · exact (hi.uploaded_before hk (markSound_true s a) hs hm hup hp).imp_right
      Covered.of_any
  · have hpend : row.uploaded = false := by
      by_contra hup
      rcases hi.flagged id row hm (by simpa using hup) with ⟨row₀, hm₀, hup₀⟩ | ⟨u, hu, hid, -⟩
      · rw [hold row₀ hm₀] at hup₀
        cases hup₀
      · exact hnone u hu hid
    have hin : (id, row) ∈ pendingRows s.ctl.db.telemetry :=
      List.mem_filter.mpr ⟨hm, by simp [hpend]⟩
    refine ⟨hpend, hin, fun hsql => ⟨?_, fun max_rows k hmax hk' => ?_⟩⟩
    · simp [storagePendingTelemetryCount, hsql]
    · exact ⟨_, fetch_all hsql hmax hk', List.mem_map_of_mem hin⟩

/-! ## Two threads -/

/-- The worker stores the point and its publish fails; the monitor fetches the row, replays it and
    marks it. -/
def replayedRun (p : Telemetry ℚ) : List (GatewayAct ℚ) :=
  .worker (.pop p) :: (List.replicate 5 (.worker .own) ++
    [.worker .lock, .worker (.publish [⟨false, .fail⟩]), .monitor (.fetch (some 1)),
      .monitor .lock, .monitor (.connect connectEvents), .monitor (.publish [writeEvent]),
      .monitor (.mark true), .monitor .unlock])

/-- `MarkSound ShowsQuality`, for evaluation. -/
def markSoundB (s : Gateway V) : GatewayAct V → Bool
  | .monitor (.mark true) =>
    match s.monitor with
    | .marking r _ => s.ctl.db.telemetry.rows.all fun p =>
      p.1 != r.row_id || p.2.uploaded || decide (ShowsQuality p.2.quality r.point)
    | _ => true
  | _ => true

theorem markSound_of_markSoundB {s : Gateway V} {a : GatewayAct V} (h : markSoundB s a = true) :
    MarkSound ShowsQuality s a := by
  rintro r rows row rfl hpc hm hup
  simp only [markSoundB, hpc, List.all_eq_true] at h
  simpa [hup] using h _ hm

theorem upload_bookkeeping_replayed :
    ∃ s : Gateway ℚ, run defaultStep defaultStart (replayedRun meterReading) = some s ∧
      s.ctl.db.telemetry.rows = [(1, (telemetryColumns meterReading).setUploaded)] ∧
      s.uploads.map (fun u => (u.thread, u.row_id)) = [(.monitor, 1)] ∧
      Uploaded (gatewayConfigDefaults ℚ) s 1 meterReading := by
  have hrun : (run defaultStep defaultStart (replayedRun meterReading)).map (fun s =>
      (s.ctl.db.telemetry.rows, s.uploads.map fun u => (u.thread, u.row_id))) =
      some ([(1, (telemetryColumns meterReading).setUploaded)], [(.monitor, 1)]) := by
    decide +kernel
  have hsound : Along defaultStep (fun s a => markSoundB s a = true) defaultStart
      (replayedRun meterReading) :=
    along_of_alongB (by decide +kernel)
  have hok : Along defaultStep (MarkSound ShowsQuality) defaultStart (replayedRun meterReading) :=
    hsound.imp fun _ _ => markSound_of_markSoundB
  obtain ⟨s, h, he⟩ := Option.map_eq_some_iff.mp hrun
  obtain ⟨hrows, hups⟩ := Prod.mk.inj he
  refine ⟨s, h, hrows, hups, ?_⟩
  rcases ((upload_bookkeeping calmEnv (gatewayConfigDefaults ℚ) []
    (storageOpen (gatewayConfigDefaults ℚ)) (replayedRun meterReading) s h).2.2.1 hok).1 1 _
    meterReading (hrows ▸ List.mem_singleton.mpr rfl) rfl rfl with ⟨row₀, hm₀, -⟩ | hu
  · cases hm₀
  · exact hu

/-- **A BAD row is flagged, and no frame that was sent shows it.** -/
theorem bad_row_flagged_unshown :
    ∃ s : Gateway ℚ, run defaultStep defaultStart (replayedRun (hotReading .bad)) = some s ∧
      s.ctl.db.telemetry.rows = [(1, (telemetryColumns (hotReading .bad)).setUploaded)] ∧
      s.net.messages = [uploadMessage (gatewayConfigDefaults ℚ) (hotReading .good)] ∧
      uploadMessage (gatewayConfigDefaults ℚ) (hotReading .bad) ∉ s.net.messages ∧
      ¬Uploaded (gatewayConfigDefaults ℚ) s 1 (hotReading .bad) := by
  have hrun : (run defaultStep defaultStart (replayedRun (hotReading .bad))).map (fun s =>
      (s.ctl.db.telemetry.rows, s.net.messages)) =
      some ([(1, (telemetryColumns (hotReading .bad)).setUploaded)],
        [uploadMessage (gatewayConfigDefaults ℚ) (hotReading .good)]) := by
    decide +kernel
  have hne : uploadMessage (gatewayConfigDefaults ℚ) (hotReading .bad) ∉
      [uploadMessage (gatewayConfigDefaults ℚ) (hotReading .good)] := by
    decide +kernel
  obtain ⟨s, h, he⟩ := Option.map_eq_some_iff.mp hrun
  obtain ⟨hrows, hmsgs⟩ := Prod.mk.inj he
  refine ⟨s, h, hrows, hmsgs, hmsgs ▸ hne, ?_⟩
  rintro ⟨u, -, -, -, i, c, hs, -⟩
  have hsent : uploadMessage (gatewayConfigDefaults ℚ) (hotReading .bad) ∈ s.net.messages :=
    List.mem_filter.mpr ⟨List.mem_map.mpr ⟨_, hs, rfl⟩, rfl⟩
  rw [hmsgs] at hsent
  exact hne hsent

end Proof
end EdgeFlow
