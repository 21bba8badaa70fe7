import EdgeFlow.Proof.SessionStream

/-!
# The session's calls keep `Rest`

Every call starts in `Rest` and, if it returns, ends in `Rest`: whatever went wrong inside it,
a connection that may carry half a packet has been closed by then. The two shutdowns that make
this true are `sendOrShutdown`'s and the one at the end of `mqttEnsureConnectedLocked`.

The postconditions also say exactly which messages a call sent (`After s₀ s xs`); the results
about uploads need that and nothing else from this file.
-/

set_option autoImplicit false

namespace EdgeFlow
namespace Proof

open Lib

variable {V : Type}

/-! ## Closing -/

theorem view_close (s : Net V) (fd i : Nat) :
    ((s.modConn fd fun c => { c with closed := true }).logOp .closed fd).view i =
      if i = fd then (s.view i).map (fun v => (v.1, true)) else s.view i := by
  show (s.modConn fd _).view i = _
  rw [view_modConn]
  split
  · unfold Net.view
    rw [Option.map_map]
    rfl
  · rfl

theorem core_close {s : Net V} {fd : Nat} (hc : Core s (some fd)) :
    Core ((s.modConn fd fun c => { c with closed := true }).logOp .closed fd) none := by
  refine ⟨fun i b cl hv => ?_, fun p hp => ?_, fun i b cl hv _ => ?_⟩
  · rw [view_close] at hv
    split at hv
    · obtain ⟨⟨b', cl'⟩, hv', he⟩ := Option.map_eq_some_iff.mp hv
      cases he
      exact hc.streams i _ _ hv'
    · exact hc.streams i b cl hv
  · rw [view_close]
    split
    · simpa using hc.fresh p hp
    · exact hc.fresh p hp
  · rw [view_close] at hv
    split at hv
    · obtain ⟨v, -, he⟩ := Option.map_eq_some_iff.mp hv
      cases he
      rfl
    · rename_i hne
      exact hc.others i b cl hv fun h => hne (Option.some.inj h).symm

theorem after_close (s : Net V) (fd : Nat) :
    After s ((s.modConn fd fun c => { c with closed := true }).logOp .closed fd) [] := by
  refine ⟨rfl, fun i b hv => ?_, by simp [Net.messages, Net.modConn, Net.logOp]⟩
  rw [view_close, hv]
  split <;> rfl

/-- `mqtt_shutdown_locked` closes the one connection that may be open. -/
theorem mqttShutdownLocked_spec {s₀ : Net V} (hc : Core s₀ s₀.fd) {E : Halt → Net V → Prop} :
    Triple (fun s => s = s₀) mqttShutdownLocked
      (fun _ s => Core s none ∧ s.fd = none ∧ s.connected = false ∧ After s₀ s []) E := by
  rintro s rfl
  unfold mqttShutdownLocked
  simp only [Prog.bind_apply, Prog.get_apply]
  cases hfd : s.fd with
  | none =>
    rw [hfd] at hc
    exact ⟨hc.congr rfl fun _ => rfl, rfl, rfl, After.of_congr rfl rfl fun _ => rfl⟩
  | some fd =>
    rw [hfd] at hc
    exact ⟨(core_close hc).congr rfl fun _ => rfl, rfl, rfl,
      (after_close s fd).then_quiet (After.of_congr rfl rfl fun _ => rfl)⟩

/-! ## Connecting -/

/-- A connection just opened: nothing has been sent on it. -/
structure Opened (s₀ s : Net V) (fd : Nat) : Prop where
  core : Core s (some fd)
  healthy : Healthy s fd
  sendsOn : s.sendsOn fd = []
  after : After s₀ s []

/-- No send is on a connection that does not exist. -/
theorem sendsOn_eq_nil {s : Net V} {cur : Option Nat} (hc : Core s cur) {i : Nat}
    (h : s.view i = none) : s.sendsOn i = [] := by
  unfold Net.sendsOn
  rw [List.filterMap_eq_nil_iff]
  rintro ⟨j, x⟩ hp
  have := hc.fresh _ hp
  rw [if_neg]
  rintro rfl
  simp [h] at this

theorem opened_socket {s : Net V} (hc : Core s none) :
    Opened s (Net.logOp { s with conns := s.conns ++ [⟨[], false, false⟩] } .opened s.conns.length)
      s.conns.length := by
  have hnew : ∀ i, (Net.logOp { s with conns := s.conns ++ [⟨[], false, false⟩] } .opened
      s.conns.length).view i = if i = s.conns.length then some ([], false) else s.view i := by
    intro i
    unfold Net.view Net.logOp
    rcases Nat.lt_trichotomy i s.conns.length with h | h | h
    · rw [List.getElem?_append_left h, if_neg (Nat.ne_of_lt h)]
    · subst h
      simp
    · rw [if_neg (Nat.ne_of_gt h), List.getElem?_eq_none (by simp; omega),
        List.getElem?_eq_none (Nat.le_of_lt h)]
  have hold : s.view s.conns.length = none := by simp [Net.view]
  have hnil : s.sendsOn s.conns.length = [] := sendsOn_eq_nil hc hold
  have hempty : Stream [] [] [] := ⟨rfl, by simp, trivial, Or.inl rfl⟩
  refine ⟨⟨fun i b cl hv => ?_, fun p hp => ?_, fun i b cl hv hi => ?_⟩, ⟨[], ?_, ?_⟩, hnil,
    rfl, fun i b hv => ?_, by simp [Net.messages, Net.logOp]⟩
  · rw [hnew] at hv
    split at hv
    · rename_i he
      cases hv
      refine ⟨[], ?_⟩
      show Stream (s.sendsOn i) [] []
      rw [he, hnil]
      exact hempty
    · exact hc.streams i b cl hv
  · rw [hnew]
    split
    · rfl
    · exact hc.fresh p hp
  · rw [hnew, if_neg fun he => hi (by rw [he])] at hv
    exact hc.others i b cl hv (by simp)
  · rw [hnew, if_pos rfl]
  · show Stream (s.sendsOn s.conns.length) [] []
    rw [hnil]
    exact hempty
  · rw [hnew, if_neg, hv]
    rintro rfl
    simp [hold] at hv

theorem sysSocket_spec {s₀ : Net V} (hc : Core s₀ none) :
    Triple (fun s => s = s₀) sysSocket
      (fun r s => match r with
        | none => Core s none ∧ After s₀ s []
        | some fd => Opened s₀ s fd)
      (fun _ s => Stuck s₀ s []) := by
  unfold sysSocket
  refine Triple.bind_at ((sysOk_spec s₀).halts
    fun _ s h => ⟨⟨none, hc.congr h.sends h.view⟩, h.after⟩) fun r s₁ h => ?_
  have hc₁ := hc.congr h.sends h.view
  cases r with
  | true =>
    rintro s rfl
    have ho := opened_socket hc₁
    exact ⟨ho.core, ho.healthy, ho.sendsOn, h.after.trans ho.after⟩
  | false =>
    rintro s rfl
    exact ⟨hc₁, h.after⟩

theorem Opened.same {s₀ s s' : Net V} {fd : Nat} (ho : Opened s₀ s fd) (h : Same s s') :
    Opened s₀ s' fd :=
  ⟨ho.core.congr h.sends h.view, ho.healthy.congr h.sends h.view,
    (sendsOn_congr h.sends fd).trans ho.sendsOn, ho.after.then_quiet h.after⟩

theorem Opened.stuck {s₀ s : Net V} {fd : Nat} (ho : Opened s₀ s fd) : Stuck s₀ s [] :=
  ⟨⟨_, ho.core⟩, ho.after⟩

theorem sysOk_opened {s₀ s₁ : Net V} {fd : Nat} (ho : Opened s₀ s₁ fd) :
    Triple (fun s => s = s₁) sysOk (fun _ s => Opened s₀ s fd) (fun _ s => Stuck s₀ s []) :=
  (sysOk_spec s₁).conseq (fun _ h => h) (fun _ _ h => ho.same h) fun _ _ h => (ho.same h).stuck

theorem sysClose_opened {s₀ s₁ : Net V} {fd : Nat} (ho : Opened s₀ s₁ fd)
    {E : Halt → Net V → Prop} :
    Triple (fun s => s = s₁) (sysClose fd) (fun _ s => Core s none ∧ After s₀ s []) E :=
  Triple.modify fun _ h => h ▸ ⟨core_close ho.core, ho.after.then_quiet (after_close s₁ fd)⟩

theorem mqttOpenTcp_spec {s₀ : Net V} (hc : Core s₀ none) :
    Triple (fun s => s = s₀) mqttOpenTcp
      (fun r s => match r with
        | none => Core s none ∧ After s₀ s []
        | some fd => Opened s₀ s fd)
      (fun _ s => Stuck s₀ s []) := by
  unfold mqttOpenTcp
  refine Triple.bind_at (sysSocket_spec hc) fun r s₁ h₁ => ?_
  cases r with
  | none => exact Triple.pure fun s h => h ▸ h₁
  | some fd =>
    refine Triple.bind_at (sysOk_opened h₁) fun r s₂ h₂ => ?_
    cases r with
    | false => exact Triple.bind (sysClose_opened h₂) fun _ => Triple.pure fun _ h => h
    | true =>
      refine Triple.bind_at (sysOk_opened h₂) fun r s₃ h₃ => ?_
      cases r with
      | false => exact Triple.bind (sysClose_opened h₃) fun _ => Triple.pure fun _ h => h
      | true => exact Triple.pure fun s h => h ▸ h₃

/-- The handshake on a fresh connection. Whatever comes of it, the descriptor is still the
    session's, so the caller's shutdown reaches the connection. -/
theorem mqttSendConnect_spec {s₀ s₁ : Net V} {fd : Nat} (ho : Opened s₀ s₁ fd)
    (hfd : s₁.fd = some fd) (client_id : Bytes) (keepalive_sec : UInt16) :
    Triple (fun s => s = s₁) (mqttSendConnect fd client_id keepalive_sec)
      (fun r s => Core s (some fd) ∧ After s₀ s [] ∧ s.fd = some fd ∧
        (r = true → Healthy s fd ∧ s.sendsOn fd ≠ []))
      (fun _ s => Stuck s₀ s []) := by
  have hord : Ordered (s₁.sendsOn fd ++ [.connect client_id keepalive_sec]) := by
    rw [ho.sendsOn]
    exact ⟨rfl, by simp⟩
  have hcut : ∀ s, CutOn s₁ s fd (.connect client_id keepalive_sec) →
      Core s (some fd) ∧ After s₀ s [] := fun s h =>
    ⟨h.core ho.core ho.healthy hord, ho.after.then_quiet (h.after ho.healthy)⟩
  unfold mqttSendConnect
  refine Triple.bind_at ((mqttSend_spec fd _ s₁).halts
    fun _ s h => ⟨⟨_, (hcut s h).1⟩, (hcut s h).2⟩) fun r s₂ h₂ => ?_
  cases r with
  | false =>
    refine Triple.pure fun s h => ?_
    subst h
    obtain ⟨t, hw, -⟩ := id h₂
    exact ⟨(hcut s h₂).1, (hcut s h₂).2, hw.fd_eq.trans hfd, by simp⟩
  | true =>
    rw [if_pos rfl] at h₂
    have hc₂ := h₂.core ho.core ho.healthy hord
    have hh₂ := h₂.healthy ho.healthy hord
    have ha₂ : After s₀ s₂ [] := ho.after.then_quiet (h₂.after ho.healthy)
    have hne : s₂.sendsOn fd ≠ [] := by simp [sendsOn_append s₁ s₂ fd _ h₂.sends]
    rw [if_pos rfl]
    refine Triple.bind_at ((sysRead_spec fd 160 s₂).halts
      fun _ s h => ⟨⟨_, hc₂.congr h.sends h.view⟩, ha₂.then_quiet h.after⟩) fun data s₃ h₃ => ?_
    -- the answer decides the result only
    have hall : ∀ r : Bool, Core s₃ (some fd) ∧ After s₀ s₃ [] ∧ s₃.fd = some fd ∧
        (r = true → Healthy s₃ fd ∧ s₃.sendsOn fd ≠ []) := fun r =>
      ⟨hc₂.congr h₃.sends h₃.view, ha₂.then_quiet h₃.after, h₃.fd_eq.trans (h₂.fd_eq.trans hfd),
        fun _ => ⟨hh₂.congr h₃.sends h₃.view, by rwa [sendsOn_congr h₃.sends]⟩⟩
    cases data with
    | none => exact Triple.pure fun s h => h ▸ hall false
    | some data =>
      by_cases hlen : data.length < 4
      · simp only [if_pos hlen]
        exact Triple.pure fun s h => h ▸ hall false
      · simp only [if_neg hlen]
        exact Triple.pure fun s h => h ▸ hall _

theorem rest_of_none {s : Net V} (hc : Core s none) (hfd : s.fd = none)
    (hcon : s.connected = false) : Rest s :=
  ⟨hfd ▸ hc, fun i h => by simp [hfd] at h, by simp [hcon, hfd]⟩

theorem mqttEnsureConnectedLocked_spec {s₀ : Net V} (hr : Rest s₀) :
    Triple (fun s => s = s₀) mqttEnsureConnectedLocked
      (fun r s => Rest s ∧ After s₀ s [] ∧ (r = true → s.fd.isSome))
      (fun _ s => Stuck s₀ s []) := by
  unfold mqttEnsureConnectedLocked
  refine Triple.get_bind fun s h => ?_
  subst h
  by_cases hup : (s.connected && s.fd.isSome) = true
  · simp only [if_pos hup]
    refine Triple.pure fun s' h => ?_
    subst h
    exact ⟨hr, After.refl s', fun _ => (Bool.and_eq_true_iff.mp hup).2⟩
  simp only [if_neg hup]
  -- whatever the session still had is closed before a new socket is opened
  refine Triple.bind_at (mqttShutdownLocked_spec hr.core) fun _ s₁ h₁ => ?_
  obtain ⟨hc₁, hfd₁, hcon₁, ha₁⟩ := h₁
  refine Triple.bind_at ((mqttOpenTcp_spec hc₁).halts
    fun _ s' h => ⟨h.1, ha₁.trans h.2⟩) fun r s₂ h₂ => ?_
  cases r with
  | none =>
    obtain ⟨hc₂, ha₂⟩ := h₂
    refine Triple.bind (Q := fun _ s' => Rest s' ∧ After s s' []) (Triple.modify fun s' h => ?_)
      fun _ => Triple.pure fun s' h => ⟨h.1, h.2, by simp⟩
    subst h
    exact ⟨rest_of_none (hc₂.congr rfl fun _ => rfl) rfl rfl,
      (ha₁.trans ha₂).then_quiet (After.of_congr rfl rfl fun _ => rfl)⟩
  | some fd =>
    refine Triple.bind_at (Q := fun _ s' => Opened s₁ s' fd ∧ s'.fd = some fd)
      (Triple.modify fun s' h => ?_) fun _ s₃ h₃ => ?_
    · subst h
      exact ⟨⟨h₂.core.congr rfl fun _ => rfl, h₂.healthy.congr rfl fun _ => rfl, h₂.sendsOn,
        h₂.after.then_quiet (After.of_congr rfl rfl fun _ => rfl)⟩, rfl⟩
    refine Triple.bind_at ((mqttSendConnect_spec h₃.1 h₃.2 _ _).halts
      fun _ s' h => ⟨h.1, ha₁.trans h.2⟩) fun r s₄ h₄ => ?_
    obtain ⟨hc₄, ha₄, hfd₄, hok⟩ := h₄
    cases r with
    | true =>
      refine Triple.bind (Q := fun _ s' => Rest s' ∧ After s s' [] ∧ s'.fd.isSome)
        (Triple.modify fun s' h => ?_) fun _ => Triple.pure fun s' h => ⟨h.1, h.2.1, fun _ => h.2.2⟩
      subst h
      obtain ⟨hh, hne⟩ := hok rfl
      refine ⟨⟨?_, fun i hi => ?_, ?_⟩, ?_, ?_⟩
      · show Core _ s'.fd
        rw [hfd₄]
        exact hc₄.congr rfl fun _ => rfl
      · have hi' : s'.fd = some i := hi
        rw [hfd₄] at hi'
        cases hi'
        exact ⟨hh.congr rfl fun _ => rfl, hne⟩
      · simp [hfd₄]
      · exact (ha₁.trans ha₄).then_quiet (After.of_congr rfl rfl fun _ => rfl)
      · simp [hfd₄]
    | false =>
      rw [if_neg (by simp)]
      refine Triple.bind (mqttShutdownLocked_spec (hfd₄ ▸ hc₄)) fun _ => Triple.pure fun s' h => ?_
      obtain ⟨hc₅, hfd₅, hcon₅, ha₅⟩ := h
      -- the new socket may hold a part of the CONNECT, and is closed with it
      exact ⟨rest_of_none hc₅ hfd₅ hcon₅, (ha₁.trans ha₄).then_quiet ha₅, by simp⟩

/-! ## Sending on the session -/

/-- The messages a send adds. -/
def sentIf (r : Bool) (x : Sent) : List Sent := if r then [x] else []

/-- **A send on the session keeps `Rest`**: either the message went out whole, or the connection
    that may hold a part of it is closed. -/
theorem sendOrShutdown_spec {s₀ : Net V} (hr : Rest s₀) {x : Sent}
    (hx : x.isConnect = false) :
    Triple (fun s => s = s₀) (sendOrShutdown x)
      (fun r s => Rest s ∧ After s₀ s (sentIf r x))
      (fun _ s => Stuck s₀ s []) := by
  unfold sendOrShutdown
  refine Triple.get_bind fun s h => ?_
  subst h
  cases hfd : s.fd with
  | none =>
    refine Triple.pure fun s' h => ?_
    subst h
    exact ⟨hr, After.refl s'⟩
  | some fd =>
    obtain ⟨hh, hne⟩ := hr.live fd hfd
    have hc : Core s (some fd) := hfd ▸ hr.core
    obtain ⟨b, -, hst⟩ := id hh
    have hord := Ordered.snoc_of_not_connect hst.ordered hne hx
    refine Triple.bind_at ((mqttSend_spec fd x s).halts
      fun _ s' h => ⟨⟨_, h.core hc hh hord⟩, h.after hh⟩) fun r s₁ h₁ => ?_
    cases r with
    | true =>
      rw [if_pos rfl] at h₁
      refine Triple.pure fun s' h => ?_
      subst h
      have hfd₁ := h₁.fd_eq.trans hfd
      refine ⟨⟨hfd₁ ▸ h₁.core hc hh hord, fun i hi => ?_, ?_⟩, ?_⟩
      · rw [hfd₁] at hi
        cases hi
        exact ⟨h₁.healthy hh hord, by simp [sendsOn_append s s' fd x h₁.sends]⟩
      · rw [h₁.connected, h₁.fd_eq]
        exact hr.connected
      · simpa [sentIf, hx] using h₁.after hh
    | false =>
      rw [if_neg (by simp)] at h₁ ⊢
      obtain ⟨t, hw, -⟩ := id h₁
      have hfd₁ := hw.fd_eq.trans hfd
      refine Triple.bind (mqttShutdownLocked_spec (hfd₁ ▸ h₁.core hc hh hord)) fun _ =>
        Triple.pure fun s' h => ?_
      obtain ⟨hc₂, hfd₂, hcon₂, ha₂⟩ := h
      exact ⟨rest_of_none hc₂ hfd₂ hcon₂, (h₁.after hh).trans ha₂⟩

/-- Connect if need be, then send: the shape of both publishing calls. -/
theorem connected_then_send {s₀ : Net V} (hr : Rest s₀) {x : Sent} (hx : x.isConnect = false) :
    Triple (fun s => s = s₀)
      (do if ← mqttEnsureConnectedLocked then sendOrShutdown x else pure false)
      (fun r s => Rest s ∧ After s₀ s (sentIf r x))
      (fun _ s => Stuck s₀ s []) := by
  refine Triple.bind_at (mqttEnsureConnectedLocked_spec hr) fun ok s₁ h₁ => ?_
  obtain ⟨hr₁, ha₁, -⟩ := h₁
  cases ok with
  | true =>
    refine (sendOrShutdown_spec hr₁ hx).conseq (fun _ h => h) ?_ ?_
    · rintro r s ⟨hr', ha⟩
      exact ⟨hr', ha₁.trans ha⟩
    · rintro _ s ⟨hc, ha⟩
      exact ⟨hc, ha₁.trans ha⟩
  | false =>
    refine Triple.pure fun s h => ?_
    subst h
    exact ⟨hr₁, ha₁⟩

/-! ## The calls -/

theorem mqttSessionPublishTelemetry_spec [CDouble V] {s₀ : Net V} (hr : Rest s₀)
    (p : Telemetry V) :
    Triple (fun s => s = s₀) (mqttSessionPublishTelemetry p)
      (fun r s => Rest s ∧
        After s₀ s (sentIf r (.publish s₀.cfg.mqtt_topic.bytes (telemetryToJson p 384))))
      (fun _ s => Stuck s₀ s []) := by
  unfold mqttSessionPublishTelemetry
  refine Triple.get_bind fun s h => ?_
  subst h
  exact connected_then_send hr rfl

theorem mqttSessionPublishHeartbeat_spec {s₀ : Net V} (hr : Rest s₀) (payload : Bytes) :
    Triple (fun s => s = s₀) (mqttSessionPublishHeartbeat payload)
      (fun r s => Rest s ∧
        After s₀ s (sentIf r (.publish s₀.cfg.mqtt_heartbeat_topic.bytes payload)))
      (fun _ s => Stuck s₀ s []) := by
  unfold mqttSessionPublishHeartbeat
  refine Triple.get_bind fun s h => ?_
  subst h
  exact connected_then_send hr rfl

theorem mqttSessionPing_spec {s₀ : Net V} (hr : Rest s₀) :
    Triple (fun s => s = s₀) mqttSessionPing
      (fun r s => Rest s ∧ After s₀ s (sentIf r .ping))
      (fun _ s => Stuck s₀ s []) := by
  unfold mqttSessionPing
  refine Triple.get_bind fun s h => ?_
  subst h
  by_cases hup : (s.connected && s.fd.isSome) = true
  · simp only [if_pos hup]
    exact sendOrShutdown_spec hr rfl
  · simp only [if_neg hup]
    refine Triple.pure fun s' h => ?_
    subst h
    exact ⟨hr, After.refl s'⟩

theorem mqttSessionShutdown_spec {s₀ : Net V} (hr : Rest s₀) {E : Halt → Net V → Prop} :
    Triple (fun s => s = s₀) mqttSessionShutdown (fun _ s => Rest s ∧ After s₀ s []) E :=
  (mqttShutdownLocked_spec hr.core).post fun _ _ h => ⟨rest_of_none h.1 h.2.1 h.2.2.1, h.2.2.2⟩

theorem replayPublish_spec [CDouble V] {s₀ : Net V} (hr : Rest s₀) (p : Telemetry V) :
    Triple (fun s => s = s₀) (replayPublish p)
      (fun r s => Rest s ∧
        After s₀ s (sentIf r (.publish s₀.cfg.mqtt_topic.bytes (telemetryToJson p 384))))
      (fun _ s => Stuck s₀ s []) := by
  unfold replayPublish
  refine Triple.get_bind fun s h => ?_
  subst h
  exact sendOrShutdown_spec hr rfl

theorem Rest.same {s₀ s : Net V} (hr : Rest s₀) (h : Same s₀ s) : Rest s := by
  refine ⟨h.fd_eq ▸ hr.core.congr h.sends h.view, fun i hi => ?_, ?_⟩
  · obtain ⟨hh, hne⟩ := hr.live i (h.fd_eq ▸ hi)
    exact ⟨hh.congr h.sends h.view, sendsOn_congr h.sends i ▸ hne⟩
  · rw [h.connected, h.fd_eq]
    exact hr.connected

/-- The replay loop, by induction on the rows; some prefix of them has been published. -/
theorem replayRows_spec [CDouble V] : ∀ (rows : List (StorageTelemetryRow V)) (replayed : Nat)
    {s₀ : Net V}, Rest s₀ →
    Triple (fun s => s = s₀) (replayRows replayPublish (fun _ => sysOk) replayed rows)
      (fun _ s => Rest s ∧ ∃ xs, After s₀ s xs)
      (fun _ s => ∃ xs, Stuck s₀ s xs) := by
  intro rows
  induction rows with
  | nil =>
    intro replayed s₀ hr
    refine Triple.pure fun s h => ?_
    subst h
    exact ⟨hr, _, After.refl s⟩
  | cons r rows ih =>
    intro replayed s₀ hr
    -- a later turn's sends come after the ones so far
    have hlift : ∀ {s₁ : Net V} {ys : List Sent} (n : Nat), Rest s₁ → After s₀ s₁ ys →
        Triple (fun s => s = s₁) (replayRows replayPublish (fun _ => sysOk) n rows)
          (fun _ s => Rest s ∧ ∃ xs, After s₀ s xs) (fun _ s => ∃ xs, Stuck s₀ s xs) := by
      intro s₁ ys n hr₁ ha₁
      refine (ih n hr₁).conseq (fun _ h => h) ?_ ?_
      · rintro _ s ⟨hr', xs, ha⟩
        exact ⟨hr', _, ha₁.trans ha⟩
      · rintro _ s ⟨xs, hc, ha⟩
        exact ⟨_, hc, ha₁.trans ha⟩
    unfold replayRows
    refine Triple.bind_at ((replayPublish_spec hr r.point).halts
      fun _ s h => ⟨_, h⟩) fun ok s₁ h₁ => ?_
    obtain ⟨hr₁, ha₁⟩ := h₁
    cases ok with
    | false =>
      refine Triple.pure fun s h => ?_
      subst h
      exact ⟨hr₁, _, ha₁⟩
    | true =>
      refine Triple.bind_at ((sysOk_spec s₁).halts
        fun _ s h => ⟨_, ⟨_, hr₁.core.congr h.sends h.view⟩, ha₁.then_quiet h.after⟩)
        fun ok s₂ h₂ => ?_
      have hr₂ := Rest.same hr₁ h₂
      have ha₂ := ha₁.then_quiet h₂.after
      cases ok with
      | true => exact hlift _ hr₂ ha₂
      | false => exact hlift _ hr₂ ha₂

theorem mqttReplayLocked_spec [CDouble V] {s₀ : Net V} (hr : Rest s₀)
    (rows : List (StorageTelemetryRow V)) :
    Triple (fun s => s = s₀) (mqttReplayLocked rows)
      (fun _ s => Rest s ∧ ∃ xs, After s₀ s xs)
      (fun _ s => ∃ xs, Stuck s₀ s xs) := by
  unfold mqttReplayLocked
  refine Triple.bind_at ((mqttEnsureConnectedLocked_spec hr).halts fun _ s h => ⟨_, h⟩)
    fun ok s₁ h₁ => ?_
  obtain ⟨hr₁, ha₁, -⟩ := h₁
  cases ok with
  | false =>
    refine Triple.pure fun s h => ?_
    subst h
    exact ⟨hr₁, _, ha₁⟩
  | true =>
    refine (replayRows_spec rows 0 hr₁).conseq (fun _ h => h) ?_ ?_
    · rintro _ s ⟨hr', xs, ha⟩
      exact ⟨hr', _, ha₁.trans ha⟩
    · rintro _ s ⟨xs, hc, ha⟩
      exact ⟨_, hc, ha₁.trans ha⟩

/-! ## Runs -/

theorem rest_init (cfg : GatewayConfig V) (handled : List Signal) :
    Rest (mqttSessionInit cfg handled) :=
  rest_of_none ⟨by simp [mqttSessionInit, Net.view], by simp [mqttSessionInit],
    by simp [mqttSessionInit, Net.view]⟩ rfl rfl

section
variable [CDouble V]

/-- **Every call keeps `Rest`**, and leaves `Core` behind wherever it is interrupted. -/
theorem SessionCall.rc_spec {s₀ : Net V} (hr : Rest s₀) (call : SessionCall V) :
    Triple (fun s => s = s₀) call.rc
      (fun _ s => Rest s ∧ ∃ xs, After s₀ s xs)
      (fun _ s => ∃ xs, Stuck s₀ s xs) := by
  cases call with
  | ensureConnected =>
    refine Triple.bind ((mqttEnsureConnectedLocked_spec hr).halts fun _ s h => ⟨_, h⟩) fun _ =>
      Triple.pure fun s h => ⟨h.1, _, h.2.1⟩
  | publishTelemetry p =>
    refine Triple.bind ((mqttSessionPublishTelemetry_spec hr p).halts fun _ s h => ⟨_, h⟩) fun _ =>
      Triple.pure fun s h => ⟨h.1, _, h.2⟩
  | publishHeartbeat payload =>
    refine Triple.bind ((mqttSessionPublishHeartbeat_spec hr payload).halts fun _ s h => ⟨_, h⟩)
      fun _ => Triple.pure fun s h => ⟨h.1, _, h.2⟩
  | replayPending rows =>
    exact Triple.bind (mqttReplayLocked_spec hr rows) fun _ => Triple.pure fun s h => h
  | ping =>
    refine Triple.bind ((mqttSessionPing_spec hr).halts fun _ s h => ⟨_, h⟩) fun _ =>
      Triple.pure fun s h => ⟨h.1, _, h.2⟩
  | shutdown =>
    exact Triple.bind (mqttSessionShutdown_spec hr) fun _ => Triple.pure fun s h => ⟨h.1, _, h.2⟩

/-- What a run leaves: streams everywhere, nothing undone, and `Rest` if its last call returned. -/
structure RunOk (s₀ : Net V) (out : Net V × Option Halt) : Prop where
  core : ∃ cur, Core out.1 cur
  after : ∃ xs, After s₀ out.1 xs
  rest : out.2 = none → Rest out.1

theorem sessionRun_ok : ∀ (calls : List (SessionCall V × List Event)) {s₀ : Net V}, Rest s₀ →
    RunOk s₀ (sessionRun s₀ calls) := by
  intro calls
  induction calls with
  | nil =>
    intro s₀ hr
    exact ⟨⟨_, hr.core⟩, ⟨_, After.refl s₀⟩, fun _ => hr⟩
  | cons c calls ih =>
    obtain ⟨call, events⟩ := c
    intro s₀ hr
    have hsame : Same s₀ { s₀ with events := events } := ⟨rfl, rfl, rfl, rfl, fun _ => rfl⟩
    have h := SessionCall.rc_spec (Rest.same hr hsame) call _ rfl
    rw [sessionRun_cons]
    rcases hx : call.rc { s₀ with events := events } with ⟨_ | _, s'⟩ <;> rw [hx] at h
    · obtain ⟨xs, hc, ha⟩ := h
      exact ⟨hc, ⟨_, hsame.after.trans ha⟩, by simp⟩
    · obtain ⟨hr', xs, ha⟩ := h
      have hrun := ih hr'
      obtain ⟨ys, hys⟩ := hrun.after
      exact ⟨hrun.core, ⟨_, (hsame.after.trans ha).trans hys⟩, hrun.rest⟩

theorem sessionRun_append (more : List (SessionCall V × List Event)) :
    ∀ (calls : List (SessionCall V × List Event)) (s : Net V),
      sessionRun s (calls ++ more) = match sessionRun s calls with
        | (s', none) => sessionRun s' more
        | (s', some h) => (s', some h) := by
  intro calls
  induction calls with
  | nil => intro s; rfl
  | cons c calls ih =>
    obtain ⟨call, events⟩ := c
    intro s
    simp only [List.cons_append, sessionRun_cons]
    rcases call.rc { s with events := events } with ⟨_ | _, s'⟩
    · rfl
    · exact ih s'

end

end Proof
end EdgeFlow
