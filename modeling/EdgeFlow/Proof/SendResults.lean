import EdgeFlow.Proof.SessionCalls

/-!
# Byte-stream integrity

`SessionCalls` says what is on a connection: whole packets, and at most one cut-off packet, which
is the last. Here are the packets counted against what the calls *returned*. A call that publishes
one message has sent it exactly if it returns `0`. A replay returns how many rows it marked, so it
has published at least as many, and all of them unless the session is down when it returns. All
its messages go out on the connection that was opened last, and on no other.
-/

set_option autoImplicit false

namespace EdgeFlow

open Lib

variable {V : Type}

/-- The messages a call has to send, in order. -/
def SessionCall.toSend [CDouble V] (cfg : GatewayConfig V) : SessionCall V → List Sent
  | .publishTelemetry p => [.publish cfg.mqtt_topic.bytes (telemetryToJson p 384)]
  | .publishHeartbeat payload => [.publish cfg.mqtt_heartbeat_topic.bytes payload]
  | .replayPending rows =>
    rows.map fun r => .publish cfg.mqtt_topic.bytes (telemetryToJson r.point 384)
  | .ping => [.ping]
  | .ensureConnected => []
  | .shutdown => []

/-- The first `k` of a call's sends returned `0` and no other did, as its return value has it. -/
def Returned.Counts [CDouble V] (cfg : GatewayConfig V) (r : Returned V) (k : Nat) : Prop :=
  match r.call with
  | .replayPending rows =>
    0 ≤ r.rc ∧ r.rc ≤ k ∧ k ≤ rows.length ∧ (k < rows.length → r.net.fd = none)
  | call => k = if r.rc = 0 then (call.toSend cfg).length else 0

/-- The first `k` messages of a call, if connection `i` was the last one opened. -/
def sentOn [CDouble V] (cfg : GatewayConfig V) (i : Nat) (call : SessionCall V) (net : Net V)
    (k : Nat) : List Sent :=
  if i + 1 = net.conns.length then (call.toSend cfg).take k else []

/-- The counts of the calls that returned, and of the one that did not. -/
structure SessionTrace.Counts [CDouble V] (cfg : GatewayConfig V) (t : SessionTrace V)
    (ks : List Nat) (k : Nat) : Prop where
  returned : List.Forall₂ (Returned.Counts cfg) t.returned ks
  halted : match t.halted with
    | some (.replayPending rows, _) => k ≤ rows.length
    | _ => k = 0

/-- What the counted sends put on connection `i`, in lock order. -/
def SessionTrace.sentOn [CDouble V] (cfg : GatewayConfig V) (t : SessionTrace V) (ks : List Nat)
    (k i : Nat) : List Sent :=
  (List.zipWith (fun r k => EdgeFlow.sentOn cfg i r.call r.net k) t.returned ks).flatten ++
    match t.halted with
    | some (call, _) => EdgeFlow.sentOn cfg i call t.net k
    | none => []

/-- The successful sends on one connection but its CONNECT. -/
def Net.messagesOn (s : Net V) (i : Nat) : List Sent :=
  (s.sendsOn i).filter fun x => !x.isConnect

namespace Proof

/-! ## What a call adds -/

/-- `xs` are the messages sent since `s₀`, all on the connection opened last. -/
structure Logged (s₀ s : Net V) (xs : List Sent) : Prop where
  cfg : s.cfg = s₀.cfg
  on : ∀ i, s.messagesOn i = s₀.messagesOn i ++ if i + 1 = s.conns.length then xs else []

/-- The session holds the connection opened last, or none. -/
def Newest (s : Net V) : Prop := ∀ i, s.fd = some i → i + 1 = s.conns.length

theorem Logged.quiet {s₀ s : Net V} (hcfg : s.cfg = s₀.cfg) (hs : s.sends = s₀.sends) :
    Logged s₀ s [] := by
  refine ⟨hcfg, fun i => ?_⟩
  unfold Net.messagesOn
  rw [sendsOn_congr hs, ite_self, List.append_nil]

/-- Messages are added up on one connection: before a new one is opened there are none. -/
theorem Logged.trans {a b c : Net V} {xs ys : List Sent} (h₁ : Logged a b xs)
    (h₂ : Logged b c ys) (h : xs = [] ∨ c.conns.length = b.conns.length) :
    Logged a c (xs ++ ys) := by
  refine ⟨h₂.cfg.trans h₁.cfg, fun i => ?_⟩
  rw [h₂.on, h₁.on, List.append_assoc]
  rcases h with rfl | hlen
  · rw [ite_self, List.nil_append, List.nil_append]
  · rw [hlen]
    split <;> simp

theorem length_of_view {s₀ s : Net V} (h : ∀ i, (s.view i).isSome = (s₀.view i).isSome) :
    s.conns.length = s₀.conns.length := by
  have hview : ∀ (t : Net V) (i : Nat), (t.view i).isSome = true ↔ i < t.conns.length := by
    intro t i
    simp [Net.view]
  have hlt : ∀ i, i < s.conns.length ↔ i < s₀.conns.length := by
    intro i
    rw [← hview s, ← hview s₀, h i]
  have h₁ := hlt s.conns.length
  have h₂ := hlt s₀.conns.length
  omega

theorem Same.length {s₀ s : Net V} (h : Same s₀ s) : s.conns.length = s₀.conns.length :=
  length_of_view fun i => congrArg Option.isSome (h.view i)

section
variable {s₀ s : Net V} {fd : Nat} {x : Sent}

theorem SentOn.length (h : SentOn s₀ s fd x) : s.conns.length = s₀.conns.length := by
  refine length_of_view fun i => ?_
  rw [h.view]
  split
  · exact Option.isSome_map
  · rfl

theorem CutOn.length (h : CutOn s₀ s fd x) : s.conns.length = s₀.conns.length := by
  obtain ⟨t, hw, -⟩ := h
  refine length_of_view fun i => ?_
  rw [hw.view]
  split
  · exact Option.isSome_map
  · rfl

theorem CutOn.logged (h : CutOn s₀ s fd x) : Logged s₀ s [] := by
  obtain ⟨t, hw, -⟩ := h
  exact Logged.quiet hw.cfg hw.sends

theorem SentOn.logged (h : SentOn s₀ s fd x) (hfd : fd + 1 = s.conns.length) :
    Logged s₀ s ([x].filter fun x => !x.isConnect) := by
  refine ⟨h.cfg, fun i => ?_⟩
  unfold Net.messagesOn
  rw [sendsOn_append s₀ s fd x h.sends]
  by_cases hi : i = fd
  · rw [if_pos hi, if_pos (by rw [hi, hfd]), List.filter_append]
  · rw [if_neg hi, if_neg (by omega), List.append_nil]

end

/-! ## The functions of the session -/

theorem sysOk_logged (s₀ : Net V) :
    Triple (fun s => s = s₀) sysOk (fun _ s => Same s₀ s) (fun _ s => Logged s₀ s []) :=
  (sysOk_spec s₀).halts fun _ _ h => Logged.quiet h.cfg h.sends

/-- `mqtt_shutdown_locked` sends nothing and opens nothing. -/
theorem mqttShutdownLocked_logged (s₀ : Net V) {E : Halt → Net V → Prop} :
    Triple (fun s => s = s₀) mqttShutdownLocked
      (fun _ s => Logged s₀ s [] ∧ s.conns.length = s₀.conns.length ∧ s.fd = none) E := by
  rintro s rfl
  unfold mqttShutdownLocked
  simp only [Prog.bind_apply, Prog.get_apply]
  cases hfd : s.fd with
  | none => exact ⟨Logged.quiet rfl rfl, rfl, rfl⟩
  | some fd =>
    refine ⟨Logged.quiet rfl rfl, ?_, rfl⟩
    simp [Net.modConn, Net.logOp]

/-- `mqtt_open_tcp` sends nothing, and what it returns was opened last. -/
theorem mqttOpenTcp_logged (s₀ : Net V) :
    Triple (fun s => s = s₀) mqttOpenTcp
      (fun r s => Logged s₀ s [] ∧ ∀ fd, r = some fd → fd + 1 = s.conns.length)
      (fun _ s => Logged s₀ s []) := by
  have hclose : ∀ (s₁ : Net V) (fd : Nat), Logged s₀ s₁ [] →
      Triple (fun s => s = s₁) (sysClose fd >>= fun _ => pure none : Sys V (Option Nat))
        (fun r s => Logged s₀ s [] ∧ ∀ fd, r = some fd → fd + 1 = s.conns.length)
        (fun _ s => Logged s₀ s []) := by
    rintro s₁ fd h s rfl
    exact ⟨h.trans (Logged.quiet rfl rfl) (Or.inl rfl), nofun⟩
  have hok : ∀ s₁ : Net V, Logged s₀ s₁ [] → Triple (fun s => s = s₁) sysOk
      (fun _ s => Logged s₀ s [] ∧ s.conns.length = s₁.conns.length)
      (fun _ s => Logged s₀ s []) := fun s₁ h =>
    (sysOk_logged s₁).conseq (fun _ h => h)
      (fun _ _ hs => ⟨h.trans (Logged.quiet hs.cfg hs.sends) (Or.inl rfl), hs.length⟩)
      fun _ _ hs => h.trans hs (Or.inl rfl)
  have hsocket : Triple (fun s => s = s₀) sysSocket
      (fun r s => Logged s₀ s [] ∧ ∀ fd, r = some fd → fd + 1 = s.conns.length)
      (fun _ s => Logged s₀ s []) := by
    unfold sysSocket
    refine Triple.bind_at (hok s₀ (Logged.quiet rfl rfl)) fun r s₁ h => ?_
    cases r with
    | false =>
      rintro s rfl
      exact ⟨h.1, nofun⟩
    | true =>
      rintro s rfl
      refine ⟨h.1.trans (Logged.quiet rfl rfl) (Or.inl rfl), ?_⟩
      rintro fd hfd
      cases hfd
      simp [Net.logOp]
  unfold mqttOpenTcp
  refine Triple.bind_at hsocket fun r s₁ h₁ => ?_
  cases r with
  | none => exact Triple.pure fun s hs => hs ▸ ⟨h₁.1, nofun⟩
  | some fd =>
    -- `inet_pton`
    refine Triple.bind_at (hok s₁ h₁.1) fun r s₂ h₂ => ?_
    cases r with
    | false => exact hclose s₂ fd h₂.1
    | true =>
      -- `connect`
      refine Triple.bind_at (hok s₂ h₂.1) fun r s₃ h₃ => ?_
      cases r with
      | false => exact hclose s₃ fd h₃.1
      | true =>
        refine Triple.pure fun s hs => ?_
        subst hs
        refine ⟨h₃.1, ?_⟩
        rintro fd' he
        cases he
        rw [h₃.2, h₂.2]
        exact h₁.2 fd rfl

/-- The CONNECT is no message. -/
theorem mqttSendConnect_logged (s₀ : Net V) {fd : Nat} (hfd : fd + 1 = s₀.conns.length)
    (client_id : Bytes) (keepalive_sec : UInt16) :
    Triple (fun s => s = s₀) (mqttSendConnect fd client_id keepalive_sec)
      (fun _ s => Logged s₀ s [] ∧ s.conns.length = s₀.conns.length ∧ s.fd = s₀.fd)
      (fun _ s => Logged s₀ s []) := by
  unfold mqttSendConnect
  refine Triple.bind_at ((mqttSend_spec fd _ s₀).halts fun _ s h => h.logged) fun r s₁ h₁ => ?_
  cases r with
  | false =>
    refine Triple.pure fun s h => ?_
    subst h
    rw [if_neg (by simp)] at h₁
    obtain ⟨t, hw, -⟩ := id h₁
    exact ⟨h₁.logged, h₁.length, hw.fd_eq⟩
  | true =>
    rw [if_pos rfl] at h₁
    have hl₁ : Logged s₀ s₁ [] := h₁.logged (hfd.trans h₁.length.symm)
    rw [if_pos rfl]
    refine Triple.bind_at ((sysRead_spec fd 160 s₁).halts fun _ s h =>
      hl₁.trans (Logged.quiet h.cfg h.sends) (Or.inl rfl)) fun data s₂ h₂ => ?_
    have hall : Logged s₀ s₂ [] ∧ s₂.conns.length = s₀.conns.length ∧ s₂.fd = s₀.fd :=
      ⟨hl₁.trans (Logged.quiet h₂.cfg h₂.sends) (Or.inl rfl), h₂.length.trans h₁.length,
        h₂.fd_eq.trans h₁.fd_eq⟩
    cases data with
    | none => exact Triple.pure fun s h => h ▸ hall
    | some data =>
      by_cases hlen : data.length < 4
      · simp only [if_pos hlen]
        exact Triple.pure fun s h => h ▸ hall
      · simp only [if_neg hlen]
        exact Triple.pure fun s h => h ▸ hall

theorem Newest.of_none {s : Net V} (h : s.fd = none) : Newest s := by
  intro i hi
  rw [h] at hi
  cases hi

theorem Newest.congr {s₀ s : Net V} (h : Newest s₀) (hfd : s.fd = s₀.fd)
    (hlen : s.conns.length = s₀.conns.length) : Newest s := by
  intro i hi
  rw [hlen]
  exact h i (hfd ▸ hi)

theorem mqttEnsureConnectedLocked_logged {s₀ : Net V} (hn : Newest s₀) :
    Triple (fun s => s = s₀) mqttEnsureConnectedLocked
      (fun r s => Logged s₀ s [] ∧ Newest s ∧ (r = false → s.fd = none))
      (fun _ s => Logged s₀ s []) := by
  unfold mqttEnsureConnectedLocked
  refine Triple.get_bind fun s h => ?_
  subst h
  by_cases hup : (s.connected && s.fd.isSome) = true
  · simp only [if_pos hup]
    refine Triple.pure fun s' h => ?_
    subst h
    exact ⟨Logged.quiet rfl rfl, hn, nofun⟩
  simp only [if_neg hup]
  refine Triple.bind_at (mqttShutdownLocked_logged s) fun _ s₁ h₁ => ?_
  refine Triple.bind_at ((mqttOpenTcp_logged s₁).halts fun _ _ h => h₁.1.trans h (Or.inl rfl))
    fun r s₂ h₂ => ?_
  have hl₂ := h₁.1.trans h₂.1 (Or.inl rfl)
  cases r with
  | none =>
    refine Triple.bind (Q := fun _ s' => Logged s s' [] ∧ s'.fd = none) (Triple.modify fun s' h => ?_)
      fun _ => Triple.pure fun s' h => ⟨h.1, Newest.of_none h.2, fun _ => h.2⟩
    subst h
    exact ⟨hl₂.trans (Logged.quiet rfl rfl) (Or.inl rfl), rfl⟩
  | some fd =>
    refine Triple.bind_at (Q := fun _ s' => Logged s s' [] ∧ s'.fd = some fd ∧
      fd + 1 = s'.conns.length) (Triple.modify fun s' h => ?_) fun _ s₃ h₃ => ?_
    · subst h
      exact ⟨hl₂.trans (Logged.quiet rfl rfl) (Or.inl rfl), rfl, h₂.2 fd rfl⟩
    refine Triple.bind_at ((mqttSendConnect_logged s₃ h₃.2.2 _ _).halts fun _ _ h =>
      h₃.1.trans h (Or.inl rfl)) fun r s₄ h₄ => ?_
    obtain ⟨hl₄, hlen₄, hfd₄⟩ := h₄
    have hl := h₃.1.trans hl₄ (Or.inl rfl)
    cases r with
    | true =>
      refine Triple.bind (Q := fun _ s' => Logged s s' [] ∧ Newest s') (Triple.modify fun s' h => ?_)
        fun _ => Triple.pure fun s' h => ⟨h.1, h.2, nofun⟩
      subst h
      refine ⟨hl.trans (Logged.quiet rfl rfl) (Or.inl rfl), fun i hi => ?_⟩
      obtain rfl : fd = i := Option.some.inj (h₃.2.1.symm.trans (hfd₄.symm.trans hi))
      exact h₃.2.2.trans hlen₄.symm
    | false =>
      rw [if_neg (by simp)]
      refine Triple.bind (mqttShutdownLocked_logged s₄) fun _ => Triple.pure fun s' h => ?_
      exact ⟨hl.trans h.1 (Or.inl rfl), Newest.of_none h.2.2, fun _ => h.2.2⟩

/-- What a send on the session leaves: the message is on the newest connection, or the session is
    down. -/
def SendResult (s₀ : Net V) (x : Sent) (r : Bool) (s : Net V) : Prop :=
  Logged s₀ s (sentIf r x) ∧ Newest s ∧ s.conns.length = s₀.conns.length ∧
    (r = false → s.fd = none)

theorem sendOrShutdown_logged {s₀ : Net V} (hn : Newest s₀) {x : Sent}
    (hx : x.isConnect = false) :
    Triple (fun s => s = s₀) (sendOrShutdown x) (SendResult s₀ x)
      (fun _ s => Logged s₀ s [] ∧ s.conns.length = s₀.conns.length) := by
  unfold sendOrShutdown
  refine Triple.get_bind fun s h => ?_
  subst h
  cases hfd : s.fd with
  | none =>
    refine Triple.pure fun s' h => ?_
    subst h
    exact ⟨Logged.quiet rfl rfl, hn, rfl, fun _ => hfd⟩
  | some fd =>
    refine Triple.bind_at ((mqttSend_spec fd x s).halts fun _ s h => ⟨h.logged, h.length⟩)
      fun r s₁ h₁ => ?_
    cases r with
    | true =>
      rw [if_pos rfl] at h₁
      refine Triple.pure fun s' h => ?_
      subst h
      have hl := h₁.logged ((hn fd hfd).trans h₁.length.symm)
      refine ⟨?_, hn.congr h₁.fd_eq h₁.length, h₁.length, nofun⟩
      simpa [sentIf, hx] using hl
    | false =>
      rw [if_neg (by simp)] at h₁ ⊢
      refine Triple.bind (mqttShutdownLocked_logged s₁) fun _ => Triple.pure fun s' h => ?_
      exact ⟨h₁.logged.trans h.1 (Or.inl rfl), Newest.of_none h.2.2, h.2.1.trans h₁.length,
        fun _ => h.2.2⟩

/-- Connect if need be, then send. -/
theorem connected_then_send_logged {s₀ : Net V} (hn : Newest s₀) {x : Sent}
    (hx : x.isConnect = false) :
    Triple (fun s => s = s₀)
      (do if ← mqttEnsureConnectedLocked then sendOrShutdown x else pure false)
      (fun r s => Logged s₀ s (sentIf r x) ∧ Newest s) (fun _ s => Logged s₀ s []) := by
  refine Triple.bind_at (mqttEnsureConnectedLocked_logged hn) fun ok s₁ h₁ => ?_
  cases ok with
  | true =>
    exact (sendOrShutdown_logged h₁.2.1 hx).conseq (fun _ h => h)
      (fun _ _ h => ⟨h₁.1.trans h.1 (Or.inl rfl), h.2.1⟩) fun _ _ h => h₁.1.trans h.1 (Or.inl rfl)
  | false =>
    refine Triple.pure fun s h => ?_
    subst h
    exact ⟨h₁.1, h₁.2.1⟩

/-! ## The calls -/

section
variable [CDouble V]

/-- The message a row is replayed in. -/
def replayMessage (cfg : GatewayConfig V) (r : StorageTelemetryRow V) : Sent :=
  .publish cfg.mqtt_topic.bytes (telemetryToJson r.point 384)

/-- What a replay leaves of `rows`, counting from `replayed`: the first `k` have been published,
    all of them unless the session is down, and no more than `k` have been marked. -/
def ReplayResult (s₀ : Net V) (rows : List (StorageTelemetryRow V)) (replayed n : Nat)
    (s : Net V) : Prop :=
  ∃ k, replayed ≤ n ∧ n ≤ replayed + k ∧ k ≤ rows.length ∧ (k < rows.length → s.fd = none) ∧
    Logged s₀ s ((rows.map (replayMessage s₀.cfg)).take k) ∧ Newest s

/-- A replay that has not returned has published some of its rows. -/
def ReplayHalt (s₀ : Net V) (rows : List (StorageTelemetryRow V)) (s : Net V) : Prop :=
  ∃ k, k ≤ rows.length ∧ Logged s₀ s ((rows.map (replayMessage s₀.cfg)).take k)

/-- The replay loop, by induction on the rows. -/
theorem replayRows_logged : ∀ (rows : List (StorageTelemetryRow V)) (replayed : Nat)
    {s₀ : Net V}, Newest s₀ →
    Triple (fun s => s = s₀) (replayRows replayPublish (fun _ => sysOk) replayed rows)
      (fun n s => ReplayResult s₀ rows replayed n s ∧ s.conns.length = s₀.conns.length)
      (fun _ s => ReplayHalt s₀ rows s ∧ s.conns.length = s₀.conns.length) := by
  intro rows
  induction rows with
  | nil =>
    intro replayed s₀ hn
    refine Triple.pure fun s h => ?_
    subst h
    exact ⟨⟨0, Nat.le_refl _, Nat.le_refl _, Nat.le_refl _, nofun, Logged.quiet rfl rfl, hn⟩, rfl⟩
  | cons r rows ih =>
    intro replayed s₀ hn
    have hpublish : Triple (fun s => s = s₀) (replayPublish r.point)
        (SendResult s₀ (replayMessage s₀.cfg r))
        (fun _ s => Logged s₀ s [] ∧ s.conns.length = s₀.conns.length) :=
      Triple.get_bind fun s h => h ▸ sendOrShutdown_logged hn rfl
    unfold replayRows
    refine Triple.bind_at (hpublish.halts fun _ s h => ⟨⟨0, Nat.zero_le _, h.1⟩, h.2⟩)
      fun ok s₁ h₁ => ?_
    obtain ⟨hl₁, hn₁, hlen₁, hdown⟩ := h₁
    cases ok with
    | false =>
      -- nothing of this row has gone out, and the session is down
      refine Triple.pure fun s h => ?_
      subst h
      exact ⟨⟨0, Nat.le_refl _, Nat.le_refl _, Nat.zero_le _, fun _ => hdown rfl, hl₁, hn₁⟩, hlen₁⟩
    | true =>
      refine Triple.bind_at ((sysOk_spec s₁).halts fun _ s h =>
        ⟨⟨1, by simp, hl₁.trans (Logged.quiet h.cfg h.sends) (Or.inr h.length)⟩,
          h.length.trans hlen₁⟩) fun ok s₂ h₂ => ?_
      have hl₂ : Logged s₀ s₂ [replayMessage s₀.cfg r] :=
        hl₁.trans (Logged.quiet h₂.cfg h₂.sends) (Or.inr h₂.length)
      have hlen₂ := h₂.length.trans hlen₁
      have hn₂ := hn₁.congr h₂.fd_eq h₂.length
      -- the turns that follow add theirs to this row's message
      have hrest : ∀ m, replayed ≤ m → m ≤ replayed + 1 → Triple (fun s => s = s₂)
          (replayRows replayPublish (fun _ => sysOk) m rows)
          (fun n s => ReplayResult s₀ (r :: rows) replayed n s ∧
            s.conns.length = s₀.conns.length)
          (fun _ s => ReplayHalt s₀ (r :: rows) s ∧ s.conns.length = s₀.conns.length) := by
        intro m hm hm'
        refine (ih m hn₂).conseq (fun _ h => h) ?_ ?_
        · rintro n s ⟨⟨k, hle, hge, hk, hcut, hl, hns⟩, hlen⟩
          rw [hl₂.cfg] at hl
          refine ⟨⟨k + 1, by omega, by omega, Nat.succ_le_succ hk, fun hlt => ?_, ?_, hns⟩,
            hlen.trans hlen₂⟩
          · exact hcut (Nat.lt_of_succ_lt_succ hlt)
          · exact hl₂.trans hl (Or.inr hlen)
        · rintro e s ⟨⟨k, hk, hl⟩, hlen⟩
          rw [hl₂.cfg] at hl
          exact ⟨⟨k + 1, Nat.succ_le_succ hk, hl₂.trans hl (Or.inr hlen)⟩, hlen.trans hlen₂⟩
      cases ok with
      | true => exact hrest (replayed + 1) (Nat.le_succ _) (Nat.le_refl _)
      | false => exact hrest replayed (Nat.le_refl _) (Nat.le_succ _)

/-- A call that has returned is counted right, and its messages are on the newest connection. -/
def CallResult (s₀ : Net V) (call : SessionCall V) (rc : Int) (s : Net V) : Prop :=
  ∃ k, Returned.Counts s₀.cfg ⟨call, rc, s⟩ k ∧ Logged s₀ s ((call.toSend s₀.cfg).take k) ∧
    Newest s

/-- A call that has not returned has sent nothing, unless it is a replay. -/
def CallHalt (s₀ : Net V) (call : SessionCall V) (s : Net V) : Prop :=
  ∃ k, (match call with
    | .replayPending rows => k ≤ rows.length
    | _ => k = 0) ∧ Logged s₀ s ((call.toSend s₀.cfg).take k)

/-- **Every call has sent what its return value says.** -/
theorem SessionCall.rc_logged {s₀ : Net V} (hn : Newest s₀) (call : SessionCall V) :
    Triple (fun s => s = s₀) call.rc (CallResult s₀ call) (fun _ s => CallHalt s₀ call s) := by
  cases call with
  | ensureConnected =>
    refine Triple.bind ((mqttEnsureConnectedLocked_logged hn).halts fun _ s h => ⟨0, rfl, h⟩)
      fun ok => Triple.pure fun s h => ⟨0, ?_, h.1, h.2.1⟩
    simp [Returned.Counts, SessionCall.toSend]
  | publishTelemetry p =>
    have hcall : Triple (fun s => s = s₀) (mqttSessionPublishTelemetry p)
        (fun r s => Logged s₀ s (sentIf r (.publish s₀.cfg.mqtt_topic.bytes
          (telemetryToJson p 384))) ∧ Newest s) (fun _ s => Logged s₀ s []) :=
      Triple.get_bind fun s h => h ▸ connected_then_send_logged hn rfl
    refine Triple.bind (hcall.halts fun _ s h => ⟨0, rfl, h⟩) fun ok => Triple.pure fun s h => ?_
    cases ok with
    | true => exact ⟨1, rfl, h.1, h.2⟩
    | false => exact ⟨0, rfl, h.1, h.2⟩
  | publishHeartbeat payload =>
    have hcall : Triple (fun s => s = s₀) (mqttSessionPublishHeartbeat payload)
        (fun r s => Logged s₀ s (sentIf r (.publish s₀.cfg.mqtt_heartbeat_topic.bytes payload)) ∧
          Newest s) (fun _ s => Logged s₀ s []) :=
      Triple.get_bind fun s h => h ▸ connected_then_send_logged hn rfl
    refine Triple.bind (hcall.halts fun _ s h => ⟨0, rfl, h⟩) fun ok => Triple.pure fun s h => ?_
    cases ok with
    | true => exact ⟨1, rfl, h.1, h.2⟩
    | false => exact ⟨0, rfl, h.1, h.2⟩
  | replayPending rows =>
    have hcall : Triple (fun s => s = s₀) (mqttReplayLocked rows)
        (fun n s => ReplayResult s₀ rows 0 n s) (fun _ s => ReplayHalt s₀ rows s) := by
      refine Triple.bind_at ((mqttEnsureConnectedLocked_logged hn).halts
        fun _ s h => ⟨0, Nat.zero_le _, h⟩) fun ok s₁ h₁ => ?_
      cases ok with
      | false =>
        refine Triple.pure fun s h => ?_
        subst h
        exact ⟨0, Nat.le_refl _, Nat.le_refl _, Nat.zero_le _, fun _ => h₁.2.2 rfl, h₁.1, h₁.2.1⟩
      | true =>
        refine (replayRows_logged rows 0 h₁.2.1).conseq (fun _ h => h) ?_ ?_
        · rintro n s ⟨⟨k, hle, hge, hk, hcut, hl, hns⟩, -⟩
          rw [h₁.1.cfg] at hl
          exact ⟨k, hle, hge, hk, hcut, h₁.1.trans hl (Or.inl rfl), hns⟩
        · rintro e s ⟨⟨k, hk, hl⟩, -⟩
          rw [h₁.1.cfg] at hl
          exact ⟨k, hk, h₁.1.trans hl (Or.inl rfl)⟩
    refine Triple.bind hcall fun n => Triple.pure fun s h => ?_
    obtain ⟨k, -, hge, hk, hcut, hl, hns⟩ := h
    exact ⟨k, ⟨Int.natCast_nonneg n, by simpa using hge, hk, hcut⟩, hl, hns⟩
  | ping =>
    have hcall : Triple (fun s => s = s₀) mqttSessionPing
        (fun r s => Logged s₀ s (sentIf r .ping) ∧ Newest s) (fun _ s => Logged s₀ s []) := by
      refine Triple.get_bind fun s h => ?_
      subst h
      by_cases hup : (s.connected && s.fd.isSome) = true
      · simp only [if_pos hup]
        exact (sendOrShutdown_logged hn rfl).conseq (fun _ h => h) (fun _ _ h => ⟨h.1, h.2.1⟩)
          fun _ _ h => h.1
      · simp only [if_neg hup]
        refine Triple.pure fun s' h => ?_
        subst h
        exact ⟨Logged.quiet rfl rfl, hn⟩
    refine Triple.bind (hcall.halts fun _ s h => ⟨0, rfl, h⟩) fun ok => Triple.pure fun s h => ?_
    cases ok with
    | true => exact ⟨1, rfl, h.1, h.2⟩
    | false => exact ⟨0, rfl, h.1, h.2⟩
  | shutdown =>
    refine Triple.bind (mqttShutdownLocked_logged s₀) fun _ => Triple.pure fun s h => ?_
    exact ⟨0, rfl, h.1, Newest.of_none h.2.2⟩

/-! ## Runs -/

/-- **Every run has sent what its return values say**, by induction on the calls. -/
theorem sessionTrace_counts : ∀ (calls : List (SessionCall V × List Event)) {s : Net V},
    Newest s → ∃ ks k, (sessionTrace s calls).Counts s.cfg ks k ∧
      ∀ i, (sessionTrace s calls).net.messagesOn i =
        s.messagesOn i ++ (sessionTrace s calls).sentOn s.cfg ks k i := by
  intro calls
  induction calls with
  | nil =>
    intro s hn
    exact ⟨[], 0, ⟨.nil, rfl⟩, fun i => (List.append_nil _).symm⟩
  | cons c calls ih =>
    obtain ⟨call, events⟩ := c
    intro s hn
    have hquiet : Logged s { s with events := events } [] := Logged.quiet rfl rfl
    have hstart : Newest ({ s with events := events } : Net V) := hn
    have hcall := SessionCall.rc_logged hstart call _ rfl
    rw [sessionTrace]
    rcases hx : call.rc { s with events := events } with ⟨h | rc, s'⟩ <;> rw [hx] at hcall
    · -- the call has not returned
      obtain ⟨k, hk, hl⟩ := hcall
      refine ⟨[], k, ⟨.nil, ?_⟩, (hquiet.trans hl (Or.inl rfl)).on⟩
      cases call <;> exact hk
    · obtain ⟨k, hk, hl, hn'⟩ := hcall
      obtain ⟨ks, kh, hcounts, hon⟩ := ih hn'
      rw [hl.cfg] at hcounts hon
      refine ⟨k :: ks, kh, ⟨.cons hk hcounts.returned, hcounts.halted⟩, fun i => ?_⟩
      refine (hon i).trans ?_
      rw [(hquiet.trans hl (Or.inl rfl)).on i, List.append_assoc]
      simp only [SessionTrace.sentOn, EdgeFlow.sentOn, List.zipWith_cons_cons, List.flatten_cons,
        List.append_assoc, List.nil_append]

/-! ## Byte-stream integrity -/

theorem Stream.parse {xs : List Sent} {b tail : Bytes} (h : Stream xs b tail) :
    Lib.Mqtt.parseStream b = (xs.map Sent.packet, .incomplete tail) := by
  have hframes : List.Forall₂ Lib.Mqtt.IsFrame (xs.map Sent.bytes) (xs.map Sent.packet) := by
    rw [List.forall₂_map_left_iff, List.forall₂_map_right_iff, List.forall₂_same]
    exact fun x hx => isFrame_of_fits (h.fits x hx)
  have htail : Lib.Mqtt.parsePacket tail = .more := by
    rcases h.cut with rfl | ⟨x, hx, -, hpre, hne⟩
    · rfl
    · exact (isFrame_of_fits hx).more_of_cut hpre hne
  rw [h.split]
  exact Lib.Mqtt.parseStream_frames hframes htail

/-- **MQTT byte-stream integrity.** For every order of session calls and everything the outside
    can do during them, and on every connection: the bytes written are a CONNECT and the messages
    of the sends that returned `0` there, in lock order, each as one packet, then possibly a
    proper prefix of one more packet that would have kept that order. Which sends returned `0` is
    what the calls' return values say (`Counts`). A broker's parser reads back exactly those
    packets and waits inside the cut-off one. A connection left with one is closed by the time
    its call returns, and no later call adds a byte to it. -/
theorem mqtt_stream_integrity (cfg : GatewayConfig V) (handled : List Signal)
    (calls : List (SessionCall V × List Event)) :
    let t := sessionTrace (mqttSessionInit cfg handled) calls
    ∃ (ks : List Nat) (k : Nat), t.Counts cfg ks k ∧
      ∀ (i : Nat) (c : Conn), t.net.conns[i]? = some c →
        ∃ (xs : List Sent) (tail : Bytes),
          xs.filter (fun x => !x.isConnect) = t.sentOn cfg ks k i ∧
          c.sent = (xs.map Sent.bytes).flatten ++ tail ∧
          (∀ x ∈ xs, Lib.Mqtt.IsFrame x.bytes x.packet) ∧
          Ordered xs ∧
          (tail = [] ∨ ∃ x : Sent, Lib.Mqtt.IsFrame x.bytes x.packet ∧ Ordered (xs ++ [x]) ∧
            tail <+: x.bytes ∧ tail ≠ x.bytes) ∧
          Lib.Mqtt.parseStream c.sent = (xs.map Sent.packet, .incomplete tail) ∧
          (tail ≠ [] → t.halted = none → c.closed = true) ∧
          (tail ≠ [] → ∀ more, ((sessionTrace (mqttSessionInit cfg handled)
            (calls ++ more)).net.conns[i]?.map Conn.sent) = some c.sent) := by
  intro t
  obtain ⟨ks, k, hcounts, hon⟩ := sessionTrace_counts calls
    (s := mqttSessionInit cfg handled) (Newest.of_none rfl)
  refine ⟨ks, k, hcounts, fun i c hi => ?_⟩
  have hrun : RunOk (mqttSessionInit cfg handled) (t.net, t.halted.map Prod.snd) :=
    sessionRun_ok calls (rest_init cfg handled)
  have hv : t.net.view i = some (c.sent, c.closed) := by simp [Net.view, hi]
  obtain ⟨cur, hcore⟩ := hrun.core
  obtain ⟨tail, hst⟩ := hcore.streams i _ _ hv
  -- a connection left open between calls carries whole packets
  have hclosed : tail ≠ [] → t.halted = none → c.closed = true := by
    intro hne hn
    have hrest : Rest t.net := hrun.rest (by rw [hn]; rfl)
    by_contra hcl
    obtain ⟨b, hb, hwhole⟩ := (hrest.live i (by
      by_contra hfd
      exact hcl (hrest.core.others i _ _ hv hfd))).1
    rw [hv] at hb
    obtain ⟨rfl, -⟩ := Prod.mk.inj (Option.some.inj hb)
    have := hwhole.split.symm.trans hst.split
    rw [List.append_nil] at this
    exact hne (List.self_eq_append_right.mp this)
  refine ⟨t.net.sendsOn i, tail, ?_, hst.split, fun x hx => isFrame_of_fits (hst.fits x hx),
    hst.ordered, ?_, hst.parse, hclosed, fun hne more => ?_⟩
  · exact (hon i).trans (List.nil_append _)
  · rcases hst.cut with h | ⟨x, hx, ho, hpre, hne⟩
    · exact Or.inl h
    · exact Or.inr ⟨x, isFrame_of_fits hx, ho, hpre, hne⟩
  · show ((sessionRun (mqttSessionInit cfg handled) (calls ++ more)).1.conns[i]?.map Conn.sent) = _
    rw [sessionRun_append, show sessionRun (mqttSessionInit cfg handled) calls =
      (t.net, t.halted.map Prod.snd) from rfl]
    cases hhalt : t.halted with
    | some h => simp [hi]
    | none =>
      obtain ⟨ys, hys⟩ := (sessionRun_ok more (hrun.rest (by rw [hhalt]; rfl))).after
      have hfro := hys.frozen i c.sent (by rw [hv, hclosed hne hhalt])
      obtain ⟨c', hc', he⟩ := Option.map_eq_some_iff.mp hfro
      simp only [Option.map_none, hc', Option.map_some]
      exact congrArg some (congrArg Prod.fst he)

end

/-- What returned are the first of the calls, in their order. -/
theorem sessionTrace_calls [CDouble V] : ∀ (calls : List (SessionCall V × List Event)) (s : Net V),
    (sessionTrace s calls).returned.map Returned.call <+: calls.map Prod.fst := by
  intro calls
  induction calls with
  | nil => exact fun s => List.prefix_rfl
  | cons c calls ih =>
    obtain ⟨call, events⟩ := c
    intro s
    rw [sessionTrace]
    rcases call.rc { s with events := events } with ⟨h | rc, s'⟩
    · exact List.nil_prefix
    · exact (List.prefix_cons_inj call).mpr (ih s')

/-! A connection on which three sends succeed, one inside a replay, and the fourth is cut off after
three bytes; the ping that follows finds no connection. -/

def samplePoint : Telemetry ℚ :=
  telemetryInit 1000 (ascii "meter_001") gridPowerKw 100 (ascii "kW") 1

def sampleMessage : Sent :=
  .publish (gatewayConfigDefaults ℚ).mqtt_topic.bytes (telemetryToJson samplePoint 384)

def cutCalls : List (SessionCall ℚ × List Event) :=
  [(.publishTelemetry samplePoint, [⟨false, .ok 0 []⟩, ⟨false, .ok 0 []⟩, ⟨false, .ok 0 []⟩,
      ⟨false, .ok 29 []⟩, ⟨false, .ok 0 [0x20, 0x02, 0x00, 0x00]⟩, ⟨false, .ok 20 []⟩,
      ⟨false, .eintr⟩, ⟨false, .ok 1000 []⟩]),
    (.ping, [⟨false, .ok 2 []⟩]),
    (.replayPending [⟨7, samplePoint⟩], [⟨false, .ok 1000 []⟩, ⟨false, .ok 0 []⟩]),
    (.publishHeartbeat (ascii "beat"), [⟨false, .ok 3 []⟩, ⟨false, .fail⟩]),
    (.ping, [])]

def cutTrace : SessionTrace ℚ :=
  sessionTrace (mqttSessionInit (gatewayConfigDefaults ℚ) []) cutCalls

theorem cutTrace_values : cutTrace.returned.map (fun r => (r.rc, r.net.conns.length)) =
    [(0, 1), (0, 1), (1, 1), (-1, 1), (-1, 1)] := by decide +kernel

theorem cutTrace_end : cutTrace.halted.isNone = true ∧
    cutTrace.net.conns.map (fun c => (c.closed, (Lib.Mqtt.parseStream c.sent).2)) =
      [(true, .incomplete [0x30, 0x18, 0x00])] := by decide +kernel

/-- The values `0, 0, 1, -1, -1` leave no choice: three messages have gone out. -/
theorem cutTrace_sentOn {ks : List Nat} {k : Nat}
    (h : cutTrace.Counts (gatewayConfigDefaults ℚ) ks k) :
    cutTrace.sentOn (gatewayConfigDefaults ℚ) ks k 0 =
      [sampleMessage, .ping, sampleMessage] := by
  have hvals := cutTrace_values
  have hlen : cutTrace.returned.length = 5 := by simpa using congrArg List.length hvals
  have hcalls : cutTrace.returned.map Returned.call = cutCalls.map Prod.fst :=
    (sessionTrace_calls cutCalls _).eq_of_length (by rw [List.length_map]; exact hlen)
  have hhalted : cutTrace.halted = none := Option.isNone_iff_eq_none.mp cutTrace_end.1
  have hreturned := h.returned
  unfold SessionTrace.sentOn
  rw [hhalted]
  rcases hret : cutTrace.returned with _ | ⟨r₁, _ | ⟨r₂, _ | ⟨r₃, _ | ⟨r₄, _ | ⟨r₅, _ | ⟨r₆, rs⟩⟩⟩⟩⟩⟩ <;>
    rw [hret] at hvals hcalls hreturned
  case cons.cons.cons.cons.cons.nil =>
    obtain ⟨k₁, ks₁, h₁, hr₁, rfl⟩ := List.forall₂_cons_left_iff.mp hreturned
    obtain ⟨k₂, ks₂, h₂, hr₂, rfl⟩ := List.forall₂_cons_left_iff.mp hr₁
    obtain ⟨k₃, ks₃, h₃, hr₃, rfl⟩ := List.forall₂_cons_left_iff.mp hr₂
    obtain ⟨k₄, ks₄, h₄, hr₄, rfl⟩ := List.forall₂_cons_left_iff.mp hr₃
    obtain ⟨k₅, ks₅, h₅, -, rfl⟩ := List.forall₂_cons_left_iff.mp hr₄
    simp only [cutCalls, List.map_cons, List.map_nil, List.cons.injEq, Prod.mk.injEq,
      and_true] at hvals hcalls
    obtain ⟨⟨hv₁, hl₁⟩, ⟨hv₂, hl₂⟩, ⟨hv₃, hl₃⟩, ⟨hv₄, -⟩, hv₅, -⟩ := hvals
    obtain ⟨hc₁, hc₂, hc₃, hc₄, hc₅⟩ := hcalls
    simp only [Returned.Counts, hc₁, hc₂, hc₃, hc₄, hc₅, hv₁, hv₂, hv₃, hv₄, hv₅] at h₁ h₂ h₃ h₄ h₅
    obtain rfl : k₁ = 1 := h₁
    obtain rfl : k₂ = 1 := h₂
    obtain rfl : k₃ = 1 := by
      obtain ⟨-, hge, hle, -⟩ := h₃
      exact Nat.le_antisymm hle (by exact_mod_cast hge)
    obtain rfl : k₄ = 0 := h₄
    obtain rfl : k₅ = 0 := h₅
    simp [EdgeFlow.sentOn, SessionCall.toSend, hc₁, hc₂, hc₃, hl₁, hl₂, hl₃, sampleMessage]
  all_goals
    simp at hvals

theorem mqtt_stream_integrity_cut :
    cutTrace.returned.map Returned.rc = [0, 0, 1, -1, -1] ∧
    ∃ (c : Conn) (xs : List Sent), cutTrace.net.conns[0]? = some c ∧ c.closed = true ∧
      xs.filter (fun x => !x.isConnect) = [sampleMessage, .ping, sampleMessage] ∧
      Lib.Mqtt.parseStream c.sent = (xs.map Sent.packet, .incomplete [0x30, 0x18, 0x00]) := by
  have hend := cutTrace_end.2
  obtain ⟨c, hconns⟩ : ∃ c, cutTrace.net.conns = [c] := by
    rcases h : cutTrace.net.conns with _ | ⟨c, _ | ⟨c', cs⟩⟩ <;> rw [h] at hend
    · cases hend
    · exact ⟨c, rfl⟩
    · simp at hend
  simp only [hconns, List.map_cons, List.map_nil, List.cons.injEq, Prod.mk.injEq, and_true] at hend
  obtain ⟨hclosed, htail⟩ := hend
  have hmain := mqtt_stream_integrity (gatewayConfigDefaults ℚ) [] cutCalls
  rw [show sessionTrace (mqttSessionInit (gatewayConfigDefaults ℚ) []) cutCalls = cutTrace from rfl]
    at hmain
  obtain ⟨ks, k, hcounts, hall⟩ := hmain
  obtain ⟨xs, tail, hxs, -, -, -, -, hparse, -⟩ := hall 0 c (by rw [hconns]; rfl)
  have hrcs := congrArg (List.map Prod.fst) cutTrace_values
  rw [List.map_map] at hrcs
  refine ⟨hrcs, c, xs, by rw [hconns]; rfl, hclosed, hxs.trans (cutTrace_sentOn hcounts), ?_⟩
  rw [hparse] at htail ⊢
  exact congrArg _ htail

end Proof
end EdgeFlow
