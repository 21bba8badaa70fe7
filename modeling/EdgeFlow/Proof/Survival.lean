import EdgeFlow.Proof.SendResults
import EdgeFlow.Proof.SessionRules
import EdgeFlow.Runtime.Main

/-!
# What the broker can do to the process

`main` handles SIGINT, SIGTERM and SIGHUP and leaves SIGPIPE at its default action, and the
session writes with plain `write`. So a broker that resets the connection the session holds ends
the process as soon as a call has something to send.

The condition is read off before a call: does it come to a `write` at all (`writes`), has the
connection it will write on been reset, and does a reset arrive while it runs (`spared`). In every
run whose calls are all spared the process ends after a signal only; and a call that is not spared
because the connection is already gone, or goes with the first `write`, ends it.
-/

set_option autoImplicit false

namespace EdgeFlow

open Lib

variable {V : Type}

/-- Whether a call comes to a `write`: on the connection the session holds if it has a message
    that fits its buffer, and on a new one if it connects. -/
def SessionCall.writes [CDouble V] (s : Net V) (call : SessionCall V) : Bool :=
  if s.connected && s.fd.isSome then (call.toSend s.cfg).head?.any Sent.fits
  else match call with
    | .ping => false
    | .shutdown => false
    | _ => true

/-- Before any signal, a call that writes finds its connection there, and none is reset while it
    runs. -/
def spared [CDouble V] (p : Process V) : ProcessStep V → Bool
  | .call call events =>
    !p.received.isEmpty || !call.writes p.net ||
      (p.net.fd.all fun fd => !p.net.goneAt fd) && events.all fun ev => !ev.resets
  | _ => true

namespace Proof

/-! ## Calls that meet no reset -/

/-- No reset is to come, a `write` on `fd` raises nothing, and the session holds `held`. -/
structure Calm (fd : Nat) (held : Option Nat) (s : Net V) : Prop where
  events : ∀ ev ∈ s.events, ev.resets = false
  alive : s.goneAt fd = false
  fd_eq : s.fd = held

/-- The same of the connection the session holds. -/
structure Safe (s : Net V) : Prop where
  events : ∀ ev ∈ s.events, ev.resets = false
  alive : ∀ fd, s.fd = some fd → s.goneAt fd = false

/-- A call that has not returned is waiting. -/
def Waits (h : Halt) (_ : Net V) : Prop := h = .blocked

theorem goneAt_close (s : Net V) (fd i : Nat) :
    ((s.modConn fd fun c => { c with closed := true }).logOp .closed fd).goneAt i = s.goneAt i := by
  unfold Net.goneAt Net.logOp Net.modConn
  rw [List.getElem?_modify]
  cases s.conns[i]? with
  | none => simp
  | some c => by_cases h : fd = i <;> simp [h]

theorem goneAt_sent (s : Net V) (fd i : Nat) (bs : Bytes) :
    (s.modConn fd fun c => { c with sent := c.sent ++ bs }).goneAt i = s.goneAt i := by
  unfold Net.goneAt Net.modConn
  rw [List.getElem?_modify]
  cases s.conns[i]? with
  | none => simp
  | some c => by_cases h : fd = i <;> simp [h]

/-- An answer without a reset leaves `fd` as it was. -/
theorem nextEvent_calm (fd : Nat) (held : Option Nat) :
    Triple (Calm fd held) (nextEvent : Sys V Event)
      (fun ev s => Calm fd held s ∧ ev.resets = false) Waits := by
  intro s h
  unfold nextEvent
  cases hev : s.events with
  | nil => exact rfl
  | cons ev evs =>
    have hall := h.events
    rw [hev] at hall
    exact ⟨⟨fun e he => hall e (List.mem_cons_of_mem ev he), h.alive, h.fd_eq⟩,
      hall ev (List.mem_cons_self ..)⟩

theorem sysOk_calm (fd : Nat) (held : Option Nat) : Keeps (Calm fd held) Waits (sysOk : Sys V Bool) :=
  Triple.bind (nextEvent_calm fd held) fun _ => Triple.pure fun _ h => h.1

theorem sysClose_calm (fd i : Nat) (held : Option Nat) : Keeps (Calm fd held) Waits (sysClose i : Sys V Unit) :=
  Keeps.modify fun s h => ⟨h.events, (goneAt_close s i fd).trans h.alive, h.fd_eq⟩

theorem sysRead_calm (fd size : Nat) (held : Option Nat) :
    Keeps (Calm fd held) Waits (sysRead fd size : Sys V (Option Bytes)) := by
  refine Triple.bind (nextEvent_calm fd held) fun ev => ?_
  rintro s ⟨h, hev⟩
  simp only [Prog.bind_apply, Prog.modify_apply, hev, brokerMove]
  exact ⟨h.events, h.alive, h.fd_eq⟩

/-- No signal is raised where the peer is there. -/
theorem sysWrite_calm (fd : Nat) (held : Option Nat) (buf : Bytes) :
    Keeps (Calm fd held) Waits (sysWrite fd buf : Sys V WriteResult) := by
  refine Triple.bind (nextEvent_calm fd held) fun ev => ?_
  rintro s ⟨h, hev⟩
  have hcalm : Calm fd held (s.logOp .wrote fd) := ⟨h.events, h.alive, h.fd_eq⟩
  simp only [Prog.bind_apply, Prog.modify_apply, Prog.get_apply, hev, brokerMove,
    Bool.false_eq_true, if_false, h.alive]
  cases ev.answer with
  | ok n data => exact ⟨hcalm.events, (goneAt_sent _ fd fd _).trans hcalm.alive, hcalm.fd_eq⟩
  | eintr => exact hcalm
  | fail => exact hcalm

/-! ## The session's functions -/

theorem writeLoop_calm (fd : Nat) (held : Option Nat) : ∀ (fuel : Nat) (buf : Bytes),
    Keeps (Calm fd held) Waits (writeLoop fd fuel buf : Sys V Bool) := by
  intro fuel
  induction fuel with
  | zero =>
    intro buf
    cases buf with
    | nil => exact Keeps.pure _
    | cons c cs => exact Triple.stop fun _ _ => rfl
  | succ fuel ih =>
    intro buf
    cases buf with
    | nil => exact Keeps.pure _
    | cons c cs =>
      refine (sysWrite_calm fd held (c :: cs)).bind fun r => ?_
      cases r with
      | took n => exact ih _
      | eintr => exact ih _
      | error => exact Keeps.pure _

theorem mqttSend_calm (fd : Nat) (held : Option Nat) (x : Sent) :
    Keeps (Calm fd held) Waits (mqttSend fd x : Sys V Bool) := by
  refine Keeps.ite ?_ (Keeps.pure _)
  refine Keeps.bind (Keeps.get_bind fun s _ => writeLoop_calm fd held _ _) fun r =>
    Keeps.ite ?_ (Keeps.pure _)
  exact (Keeps.modify fun s h => ⟨h.events, h.alive, h.fd_eq⟩).bind fun _ => Keeps.pure _

theorem mqttSendConnect_calm (fd : Nat) (held : Option Nat) (client_id : Bytes) (keepalive_sec : UInt16) :
    Keeps (Calm fd held) Waits (mqttSendConnect fd client_id keepalive_sec : Sys V Bool) := by
  refine (mqttSend_calm fd held _).bind fun r => Keeps.ite ?_ (Keeps.pure _)
  refine (sysRead_calm fd 160 held).bind fun data => ?_
  cases data with
  | none => exact Keeps.pure _
  | some data =>
    by_cases hlen : data.length < 4
    · simp only [if_pos hlen]
      exact Keeps.pure _
    · simp only [if_neg hlen]
      exact Keeps.pure _

/-- A session that holds the connection it writes on, or none, is safe. -/
theorem Calm.safe {s : Net V} {fd : Nat} {held : Option Nat} (h : Calm fd held s)
    (hheld : held = none ∨ held = some fd) : Safe s := by
  refine ⟨h.events, fun i hi => ?_⟩
  rw [h.fd_eq] at hi
  rcases hheld with rfl | rfl
  · cases hi
  · cases hi
    exact h.alive

/-- A connection that is not there yet has not been reset. -/
theorem calm_next {s : Net V} (h : ∀ ev ∈ s.events, ev.resets = false) :
    Calm s.conns.length s.fd s :=
  ⟨h, by simp [Net.goneAt], rfl⟩

theorem mqttShutdownLocked_safe (s₀ : Net V) (h : ∀ ev ∈ s₀.events, ev.resets = false) :
    Triple (fun s => s = s₀) mqttShutdownLocked (fun _ s => Safe s ∧ s.fd = none) Waits := by
  rintro s rfl
  unfold mqttShutdownLocked
  simp only [Prog.bind_apply, Prog.get_apply]
  cases s.fd with
  | none => exact ⟨⟨h, nofun⟩, rfl⟩
  | some fd => exact ⟨⟨h, nofun⟩, rfl⟩

/-- What `mqtt_open_tcp` leaves: the socket it returns is new, so nothing has reset it. -/
def OpenResult (s₀ : Net V) (r : Option Nat) (s : Net V) : Prop :=
  match r with
  | none => ∀ ev ∈ s.events, ev.resets = false
  | some fd => Calm fd s₀.fd s

theorem mqttOpenTcp_calm (s₀ : Net V) (h : ∀ ev ∈ s₀.events, ev.resets = false) :
    Triple (fun s => s = s₀) mqttOpenTcp (OpenResult s₀) Waits := by
  have hsocket : Triple (fun s => s = s₀) sysSocket (OpenResult s₀) Waits := by
    refine Triple.bind ((sysOk_calm _ _).starting (calm_next h)) fun ok => ?_
    cases ok with
    | false => exact Triple.pure fun s hs => hs.events
    | true =>
      intro s hs
      exact ⟨hs.events, by simp [Net.goneAt, Net.logOp], hs.fd_eq⟩
  have hclose : ∀ fd, Triple (Calm fd s₀.fd)
      (sysClose fd >>= fun _ => pure none : Sys V (Option Nat)) (OpenResult s₀) Waits :=
    fun fd => Triple.bind (sysClose_calm fd fd _) fun _ => Triple.pure fun s hs => hs.events
  unfold mqttOpenTcp
  refine Triple.bind hsocket fun r => ?_
  cases r with
  | none => exact Triple.pure fun _ hs => hs
  | some fd =>
    refine Triple.bind (sysOk_calm fd _) fun ok => ?_
    cases ok with
    | false => exact hclose fd
    | true =>
      refine Triple.bind (sysOk_calm fd _) fun ok => ?_
      cases ok with
      | false => exact hclose fd
      | true => exact Triple.pure fun _ hs => hs

theorem mqttEnsureConnectedLocked_safe :
    Keeps Safe Waits (mqttEnsureConnectedLocked : Sys V Bool) := by
  refine Keeps.get_bind fun s hs => Keeps.ite (Keeps.pure _) ?_
  refine Triple.bind_at (Triple.at_state fun s₀ h₀ => mqttShutdownLocked_safe s₀ h₀.events)
    fun _ s₁ h₁ => ?_
  refine Triple.bind (mqttOpenTcp_calm s₁ h₁.1.events) fun r => ?_
  cases r with
  | none =>
    exact Triple.bind (Triple.modify fun s' h => ⟨h, nofun⟩) fun _ => Triple.pure fun _ h => h
  | some fd =>
    refine Triple.bind (Q := fun _ => Calm fd (some fd))
      (Triple.modify fun s' h => ⟨h.events, h.alive, rfl⟩) fun _ => ?_
    refine Triple.bind (mqttSendConnect_calm fd _ _ _) fun ok => ?_
    cases ok with
    | true =>
      exact Triple.bind (Triple.modify fun s' h => ⟨h.events, h.alive, h.fd_eq⟩)
        fun _ => Triple.pure fun s' (h : Calm fd (some fd) s') => h.safe (Or.inr rfl)
    | false =>
      refine Triple.bind (Triple.at_state fun s₀ h₀ => mqttShutdownLocked_safe s₀ h₀.events)
        fun _ => Triple.pure fun s' h => h.1

theorem sendOrShutdown_safe (x : Sent) : Keeps Safe Waits (sendOrShutdown x : Sys V Bool) := by
  refine Triple.get_bind fun s hs => ?_
  cases hfd : s.fd with
  | none => exact Triple.pure fun s' h => h ▸ hs
  | some fd =>
    have hcalm : Calm fd (some fd) s := ⟨hs.events, hs.alive fd hfd, hfd⟩
    refine Triple.bind ((mqttSend_calm fd _ x).starting hcalm) fun ok => ?_
    cases ok with
    | true => exact Triple.pure fun s' h => h.safe (Or.inr rfl)
    | false =>
      refine Triple.bind (Triple.at_state fun s₀ h₀ => mqttShutdownLocked_safe s₀ h₀.events)
        fun _ => Triple.pure fun s' h => h.1

section
variable [CDouble V]

theorem replayRows_safe : ∀ (rows : List (StorageTelemetryRow V)) (replayed : Nat),
    Keeps Safe Waits (replayRows replayPublish (fun _ => sysOk) replayed rows : Sys V Nat) := by
  intro rows
  induction rows with
  | nil => exact fun _ => Keeps.pure _
  | cons r rows ih =>
    intro replayed
    refine Keeps.bind (Keeps.get_bind fun _ _ => sendOrShutdown_safe _) fun ok =>
      Keeps.ite ?_ (Keeps.pure _)
    have hmark : Keeps Safe Waits (sysOk : Sys V Bool) := by
      refine Triple.bind (Q := fun _ => Safe) (fun s h => ?_) fun _ => Triple.pure fun _ h => h
      unfold nextEvent
      cases hev : s.events with
      | nil => exact rfl
      | cons ev evs =>
        have hall := h.events
        rw [hev] at hall
        exact ⟨fun e he => hall e (List.mem_cons_of_mem ev he), h.alive⟩
    exact hmark.bind fun _ => Keeps.ite (ih _) (ih _)

/-- **A call on a safe session is not killed.** -/
theorem SessionCall.rc_safe (call : SessionCall V) : Keeps Safe Waits call.rc := by
  have hpub : ∀ x : Sent, Keeps Safe Waits
      (do if ← mqttEnsureConnectedLocked then sendOrShutdown x else pure false : Sys V Bool) :=
    fun x => mqttEnsureConnectedLocked_safe.bind fun _ =>
      Keeps.ite (sendOrShutdown_safe x) (Keeps.pure _)
  cases call with
  | ensureConnected => exact mqttEnsureConnectedLocked_safe.bind fun _ => Keeps.pure _
  | publishTelemetry p => exact (Keeps.get_bind fun _ _ => hpub _).bind fun _ => Keeps.pure _
  | publishHeartbeat payload =>
    exact (Keeps.get_bind fun _ _ => hpub _).bind fun _ => Keeps.pure _
  | replayPending rows =>
    exact Keeps.bind (mqttEnsureConnectedLocked_safe.bind fun _ =>
      Keeps.ite (replayRows_safe rows 0) (Keeps.pure _)) fun _ => Keeps.pure _
  | ping =>
    exact Keeps.bind (Keeps.get_bind fun _ _ => Keeps.ite (sendOrShutdown_safe _)
      (Keeps.pure _)) fun _ => Keeps.pure _
  | shutdown =>
    exact Triple.bind (Triple.at_state fun s₀ h₀ => mqttShutdownLocked_safe s₀ h₀.events)
      fun _ => Triple.pure fun s' h => h.1

end

/-! ## Calls that write nothing -/

theorem mqttShutdownLocked_returns (s : Net V) : ∃ s', mqttShutdownLocked s = (.ok (), s') := by
  unfold mqttShutdownLocked
  simp only [Prog.bind_apply, Prog.get_apply]
  cases s.fd with
  | none => exact ⟨_, rfl⟩
  | some fd => exact ⟨_, rfl⟩

theorem mqttEnsureConnectedLocked_up {s : Net V} (h : (s.connected && s.fd.isSome) = true) :
    mqttEnsureConnectedLocked s = (.ok true, s) := by
  unfold mqttEnsureConnectedLocked
  rw [Prog.bind_apply_ok (Prog.get_apply s), if_pos h]
  rfl

/-- A message that does not fit is refused before the `write`. -/
theorem sendOrShutdown_unfit {x : Sent} (hx : x.fits = false) (s : Net V) :
    ∃ s', sendOrShutdown x s = (.ok false, s') := by
  unfold sendOrShutdown
  rw [Prog.bind_apply_ok (Prog.get_apply s)]
  cases s.fd with
  | none => exact ⟨s, rfl⟩
  | some fd =>
    have hsend : mqttSend fd x s = (.ok false, s) := by
      unfold mqttSend
      rw [hx]
      rfl
    obtain ⟨s', hs'⟩ := mqttShutdownLocked_returns s
    refine ⟨s', ?_⟩
    show (mqttSend fd x >>= _) s = _
    rw [Prog.bind_apply_ok hsend, if_neg (by simp), Prog.bind_apply_ok hs']
    rfl

/-- **A call that writes nothing returns**, whatever the broker has done. -/
theorem SessionCall.rc_idle [CDouble V] {s : Net V} {call : SessionCall V}
    (h : call.writes s = false) : ∃ rc s', call.rc s = (.ok rc, s') := by
  have hcode : ∀ {α : Type} {x : Sys V α} (a : α) (s' : Net V) (f : α → Int),
      x s = (.ok a, s') → ∃ rc s', (x >>= fun a => pure (f a) : Sys V Int) s = (.ok rc, s') := by
    intro α x a s' f hx
    exact ⟨f a, s', Prog.bind_apply_ok hx _⟩
  obtain ⟨s', hshutdown⟩ := mqttShutdownLocked_returns s
  unfold SessionCall.writes at h
  split at h
  case isTrue hup =>
    have hensure := mqttEnsureConnectedLocked_up hup
    cases call with
    | ensureConnected => exact hcode _ _ _ hensure
    | publishTelemetry p =>
      obtain ⟨s', hs'⟩ := sendOrShutdown_unfit (x := .publish s.cfg.mqtt_topic.bytes
        (telemetryToJson p 384)) (by simpa [SessionCall.toSend] using h) s
      refine hcode false s' _ ?_
      unfold mqttSessionPublishTelemetry
      rw [Prog.bind_apply_ok (Prog.get_apply s), Prog.bind_apply_ok hensure]
      exact hs'
    | publishHeartbeat payload =>
      obtain ⟨s', hs'⟩ := sendOrShutdown_unfit (x := .publish s.cfg.mqtt_heartbeat_topic.bytes
        payload) (by simpa [SessionCall.toSend] using h) s
      refine hcode false s' _ ?_
      unfold mqttSessionPublishHeartbeat
      rw [Prog.bind_apply_ok (Prog.get_apply s), Prog.bind_apply_ok hensure]
      exact hs'
    | replayPending rows =>
      cases rows with
      | nil =>
        refine hcode 0 s _ ?_
        unfold mqttReplayLocked
        rw [Prog.bind_apply_ok hensure]
        rfl
      | cons r rows =>
        obtain ⟨s', hs'⟩ := sendOrShutdown_unfit (x := .publish s.cfg.mqtt_topic.bytes
          (telemetryToJson r.point 384)) (by simpa [SessionCall.toSend] using h) s
        refine hcode 0 s' _ ?_
        unfold mqttReplayLocked
        rw [Prog.bind_apply_ok hensure, if_pos rfl]
        have hpublish : replayPublish r.point s = (.ok false, s') := hs'
        unfold replayRows
        rw [Prog.bind_apply_ok hpublish]
        rfl
    | ping => simp [SessionCall.toSend, Sent.fits] at h
    | shutdown => exact hcode _ _ _ hshutdown
  case isFalse hdown =>
    cases call with
    | ping =>
      refine hcode false s _ ?_
      unfold mqttSessionPing
      rw [Prog.bind_apply_ok (Prog.get_apply s), if_neg hdown]
      rfl
    | shutdown => exact hcode _ _ _ hshutdown
    | _ => cases h

/-! ## The first write after a reset -/

/-- **A `write` on a connection that has been reset, or is reset now, kills the process.** -/
theorem sysWrite_kills {s : Net V} {fd : Nat} {buf : Bytes} {ev : Event} {events : List Event}
    (hev : s.events = ev :: events) (hpipe : Signal.sigpipe ∉ s.handled)
    (hfd : fd < s.conns.length) (h : s.goneAt fd = true ∨ ev.resets = true) :
    ∃ s', sysWrite fd buf s = (.error .killed, s') := by
  have hgone : (brokerMove fd ev.resets { s with events := events }).goneAt fd = true := by
    unfold brokerMove
    split
    case isTrue => simp [Net.goneAt, Net.modConn, hfd]
    case isFalse hno => exact h.resolve_right hno
  have hhandled : (brokerMove fd ev.resets { s with events := events }).handled = s.handled := by
    unfold brokerMove
    split <;> rfl
  unfold sysWrite
  rw [Prog.bind_apply_ok (nextEvent_cons hev)]
  simp only [Prog.bind_apply, Prog.modify_apply, Prog.get_apply, hgone, if_true, hhandled,
    if_neg hpipe]
  exact ⟨_, rfl⟩

/-- Every packet has a first byte to write. -/
theorem Sent.bytes_ne_nil (x : Sent) : x.bytes ≠ [] := by
  cases x <;> simp [Sent.bytes, connectBytes, publishBytes]

theorem sendOrShutdown_kills {s : Net V} {fd : Nat} {x : Sent} {ev : Event} {events : List Event}
    (hx : x.fits = true) (hheld : s.fd = some fd) (hev : s.events = ev :: events)
    (hpipe : Signal.sigpipe ∉ s.handled) (hfd : fd < s.conns.length)
    (h : s.goneAt fd = true ∨ ev.resets = true) :
    ∃ s', sendOrShutdown x s = (.error .killed, s') := by
  obtain ⟨s', hwrite⟩ : ∃ s', sysWrite fd x.bytes s = (.error .killed, s') :=
    sysWrite_kills hev hpipe hfd h
  have hall : mqttWriteAll fd x.bytes s = (.error .killed, s') := by
    unfold mqttWriteAll
    rw [Prog.bind_apply_ok (Prog.get_apply s), hev]
    obtain ⟨b, bs, hb⟩ := List.exists_cons_of_ne_nil (Sent.bytes_ne_nil x)
    rw [hb] at hwrite ⊢
    exact Prog.bind_apply_error hwrite _
  have hsend : mqttSend fd x s = (.error .killed, s') := by
    unfold mqttSend
    rw [hx, if_pos rfl]
    exact Prog.bind_apply_error hall _
  refine ⟨s', ?_⟩
  unfold sendOrShutdown
  rw [Prog.bind_apply_ok (Prog.get_apply s), hheld]
  exact Prog.bind_apply_error hsend _

/-- The call that makes the first `write` after a reset does not outlive it. -/
theorem SessionCall.rc_kills [CDouble V] {s : Net V} {call : SessionCall V} {fd : Nat} {ev : Event}
    {events : List Event} (hwrites : call.writes s = true) (hcon : s.connected = true)
    (hheld : s.fd = some fd) (hev : s.events = ev :: events)
    (hpipe : Signal.sigpipe ∉ s.handled) (hfd : fd < s.conns.length)
    (h : s.goneAt fd = true ∨ ev.resets = true) :
    ∃ s', call.rc s = (.error .killed, s') := by
  have hup : (s.connected && s.fd.isSome) = true := by simp [hcon, hheld]
  have hensure := mqttEnsureConnectedLocked_up hup
  have hsend : ∀ {x : Sent}, x.fits = true → ∃ s', sendOrShutdown x s = (.error .killed, s') :=
    fun hx => sendOrShutdown_kills hx hheld hev hpipe hfd h
  unfold SessionCall.writes at hwrites
  rw [if_pos hup] at hwrites
  cases call with
  | ensureConnected => simp [SessionCall.toSend] at hwrites
  | publishTelemetry p =>
    obtain ⟨s', hs'⟩ := hsend (x := .publish s.cfg.mqtt_topic.bytes (telemetryToJson p 384))
      (by simpa [SessionCall.toSend] using hwrites)
    refine ⟨s', Prog.bind_apply_error ?_ _⟩
    unfold mqttSessionPublishTelemetry
    rw [Prog.bind_apply_ok (Prog.get_apply s), Prog.bind_apply_ok hensure]
    exact hs'
  | publishHeartbeat payload =>
    obtain ⟨s', hs'⟩ := hsend (x := .publish s.cfg.mqtt_heartbeat_topic.bytes payload)
      (by simpa [SessionCall.toSend] using hwrites)
    refine ⟨s', Prog.bind_apply_error ?_ _⟩
    unfold mqttSessionPublishHeartbeat
    rw [Prog.bind_apply_ok (Prog.get_apply s), Prog.bind_apply_ok hensure]
    exact hs'
  | replayPending rows =>
    cases rows with
    | nil => simp [SessionCall.toSend] at hwrites
    | cons r rows =>
      obtain ⟨s', hs'⟩ := hsend (x := .publish s.cfg.mqtt_topic.bytes
        (telemetryToJson r.point 384)) (by simpa [SessionCall.toSend] using hwrites)
      refine ⟨s', Prog.bind_apply_error ?_ _⟩
      unfold mqttReplayLocked
      rw [Prog.bind_apply_ok hensure, if_pos rfl]
      unfold replayRows
      have hpublish : replayPublish r.point s = (.error .killed, s') := hs'
      exact Prog.bind_apply_error hpublish _
  | ping =>
    obtain ⟨s', hs'⟩ := hsend (x := .ping) rfl
    refine ⟨s', Prog.bind_apply_error ?_ _⟩
    unfold mqttSessionPing
    rw [Prog.bind_apply_ok (Prog.get_apply s), if_pos hup]
    exact hs'
  | shutdown => simp [SessionCall.toSend] at hwrites

/-! ## The process -/

/-- No call changes what is handled. -/
theorem handled_rule : SessionRule (V := V) (fun s => Signal.sigpipe ∉ s.handled)
    (fun _ s => Signal.sigpipe ∉ s.handled) fun _ => True where
  blocked _ h := h
  events _ _ h := h
  socket _ h := h
  close _ _ h := h
  read s fd resets h := by
    unfold brokerMove
    split
    · exact h
    · exact h
  write fd buf := by
    have hevent : Keeps (fun s : Net V => Signal.sigpipe ∉ s.handled)
        (fun _ s => Signal.sigpipe ∉ s.handled) nextEvent :=
      nextEvent_keeps (fun _ h => h) fun _ _ h => h
    refine hevent.bind fun ev => Keeps.bind (Keeps.modify fun s h => ?_) fun _ => ?_
    · unfold brokerMove
      split
      · exact h
      · exact h
    intro s h
    simp only [Prog.bind_apply, Prog.get_apply, Prog.modify_apply]
    split_ifs
    · exact h
    · cases ev.answer with
      | ok n data => exact h
      | eintr => exact h
      | fail => exact h
  fields _ _ _ h := h
  sent _ _ _ _ h := h
  message _ _ := trivial
  connect _ _ := trivial

/-- What every step of a run with spared calls keeps. -/
structure ProcessInv (p : Process V) : Prop where
  waiting : p.received = [] → p.status = .running
  requested : p.g_exit_requested = true → p.received ≠ []

/-- What every step of any run keeps. -/
structure SessionInv (p : Process V) : Prop where
  default : Signal.sigpipe ∉ p.net.handled
  newest : p.status = .running → p.busy = false → Newest p.net

theorem processInv_start (cfg : GatewayConfig V) : ProcessInv (processStart cfg) :=
  ⟨fun _ => rfl, fun h => by simp [processStart] at h⟩

theorem sessionInv_start (cfg : GatewayConfig V) : SessionInv (processStart cfg) :=
  ⟨by simp [processStart, mqttSessionInit, mainSignals], fun _ _ => Newest.of_none rfl⟩

theorem brokerMove_newest {s : Net V} (h : Newest s) (fd : Nat) (resets : Bool) :
    Newest (brokerMove fd resets s) := by
  unfold brokerMove
  split
  · exact h.congr rfl (by simp [Net.modConn])
  · exact h

section
variable [CDouble V]

theorem ProcessInv.step (p : Process V) (l : ProcessStep V) (p' : Process V)
    (hi : ProcessInv p) (hspared : spared p l = true) (h : processStep p l = some p') :
    ProcessInv p' := by
  cases l with
  | call call events =>
    simp only [processStep, Option.ite_none_right_eq_some] at h
    obtain ⟨⟨hrun, -⟩, h⟩ := h
    -- before a signal the call cannot be killed
    have hlives : p.received = [] → ∀ s', call.rc { p.net with events := events } ≠
        (.error .killed, s') := by
      intro hr s' hk
      by_cases hwrites : call.writes p.net = true
      · simp only [spared, hr, hwrites, List.isEmpty_nil, Bool.not_true, Bool.or_false,
          Bool.false_or, Bool.and_eq_true, List.all_eq_true, Bool.not_eq_true'] at hspared
        have hsafe : Safe ({ p.net with events := events } : Net V) := by
          refine ⟨hspared.2, fun fd hfd => ?_⟩
          have hall := hspared.1
          rw [show p.net.fd = some fd from hfd] at hall
          have hno : p.net.goneAt fd = false := by simpa using hall
          exact hno
        have hkeep := SessionCall.rc_safe call _ hsafe
        rw [hk] at hkeep
        cases hkeep
      · have hidle : call.writes { p.net with events := events } = false :=
          Bool.eq_false_iff.mpr hwrites
        obtain ⟨rc, s'', hok⟩ := SessionCall.rc_idle hidle
        rw [hok] at hk
        cases hk
    rcases hx : call.rc { p.net with events := events } with ⟨e | _, net⟩ <;> simp only [hx] at h
    · cases e with
      | blocked =>
        cases h
        exact ⟨fun _ => hrun, hi.requested⟩
      | killed =>
        cases h
        exact ⟨fun hr => absurd hx (hlives hr net), hi.requested⟩
    · cases h
      exact ⟨fun _ => hrun, hi.requested⟩
  | signal signo =>
    simp only [processStep, Option.ite_none_right_eq_some] at h
    obtain ⟨-, h⟩ := h
    cases h
    exact ⟨fun hr => by simp [onSignal] at hr, fun _ => by simp [onSignal]⟩
  | reset fd =>
    simp only [processStep, Option.ite_none_right_eq_some] at h
    obtain ⟨-, h⟩ := h
    cases h
    exact ⟨hi.waiting, hi.requested⟩
  | leave =>
    simp only [processStep, Option.ite_none_right_eq_some] at h
    obtain ⟨hc, h⟩ := h
    cases h
    exact ⟨fun hr => absurd hr (hi.requested hc.2.2), hi.requested⟩

theorem SessionInv.step (p : Process V) (l : ProcessStep V) (p' : Process V)
    (hi : SessionInv p) (h : processStep p l = some p') : SessionInv p' := by
  cases l with
  | call call events =>
    simp only [processStep, Option.ite_none_right_eq_some] at h
    obtain ⟨⟨hrun, hbusy⟩, h⟩ := h
    have hhandled := handled_rule.call call { p.net with events := events } hi.default
    have hstart : Newest ({ p.net with events := events } : Net V) := hi.newest hrun hbusy
    have hnewest := SessionCall.rc_logged hstart call _ rfl
    rcases hx : call.rc { p.net with events := events } with ⟨e | rc, net⟩ <;>
      simp only [hx] at h hhandled hnewest
    · cases e with
      | blocked =>
        cases h
        exact ⟨hhandled, fun _ hb => absurd hb (by simp)⟩
      | killed =>
        cases h
        exact ⟨hhandled, fun hr => absurd hr (by simp)⟩
    · cases h
      obtain ⟨k, -, -, hn⟩ := hnewest
      exact ⟨hhandled, fun _ _ => hn⟩
  | signal signo =>
    simp only [processStep, Option.ite_none_right_eq_some] at h
    obtain ⟨-, h⟩ := h
    cases h
    exact ⟨hi.default, hi.newest⟩
  | reset fd =>
    simp only [processStep, Option.ite_none_right_eq_some] at h
    obtain ⟨-, h⟩ := h
    cases h
    refine ⟨?_, fun hr hb => brokerMove_newest (hi.newest hr hb) fd true⟩
    unfold brokerMove
    split
    · exact hi.default
    · exact hi.default
  | leave =>
    simp only [processStep, Option.ite_none_right_eq_some] at h
    obtain ⟨hc, h⟩ := h
    cases h
    refine ⟨?_, fun hr => absurd hr (by simp)⟩
    obtain ⟨s', hs'⟩ := mqttShutdownLocked_returns p.net
    have hkeep := handled_rule.mqttShutdownLocked p.net hi.default
    rw [hs'] at hkeep
    show Signal.sigpipe ∉ (mqttShutdownLocked p.net).2.handled
    rw [hs']
    exact hkeep

/-- **The process outlives a broker that spares its calls.** In every run in which, before any
    signal, no call writes on a connection the broker has reset and none is reset under a call
    that writes, the process ends after SIGINT, SIGTERM or SIGHUP only. And in every run, a call
    that has something to write on a connection already reset, or reset at the first `write`,
    ends the process. -/
theorem process_survives (cfg : GatewayConfig V) (steps : List (ProcessStep V))
    (p : Process V) (h : run processStep (processStart cfg) steps = some p) :
    (Along processStep (fun p l => spared p l = true) (processStart cfg) steps →
      p.status ≠ .running → p.received ≠ []) ∧
    ∀ (call : SessionCall V) (ev : Event) (events : List Event) (fd : Nat),
      p.status = .running → p.busy = false → p.net.connected = true → p.net.fd = some fd →
      call.writes p.net = true → (p.net.goneAt fd = true ∨ ev.resets = true) →
      ∃ p', processStep p (.call call (ev :: events)) = some p' ∧ p'.status = .killed ∧
        p'.received = p.received := by
  refine ⟨fun hspared hstatus hr => ?_, ?_⟩
  · have hi : ProcessInv p := run_inv_along ProcessInv.step (processInv_start cfg) hspared h
    exact hstatus (hi.waiting hr)
  · intro call ev events fd hrun hbusy hcon hfd hwrites hgone
    have hi : SessionInv p := run_inv SessionInv.step (sessionInv_start cfg) h
    have hlt : fd < p.net.conns.length := by
      have := hi.newest hrun hbusy fd hfd
      omega
    obtain ⟨s', hs'⟩ := SessionCall.rc_kills (s := { p.net with events := ev :: events })
      hwrites hcon hfd rfl hi.default hlt hgone
    refine ⟨{ p with net := s', status := .killed }, ?_, rfl, rfl⟩
    simp only [processStep]
    rw [if_pos ⟨hrun, hbusy⟩, hs']

end

/-- The session connects and pings. -/
def connectAndPing : List (ProcessStep ℚ) :=
  [.call .ensureConnected [⟨false, .ok 0 []⟩, ⟨false, .ok 0 []⟩, ⟨false, .ok 0 []⟩,
      ⟨false, .ok 29 []⟩, ⟨false, .ok 0 [0x20, 0x02, 0x00, 0x00]⟩],
    .call .ping [⟨false, .ok 2 []⟩]]

/-- After two pings a signal comes, then a reset, and the process leaves in order. -/
def orderlyRun : List (ProcessStep ℚ) :=
  connectAndPing ++ [.call .ping [⟨false, .ok 2 []⟩], .reset 0, .signal .sigterm, .leave]

theorem process_survives_orderly :
    ∃ p : Process ℚ, run processStep (processStart (gatewayConfigDefaults ℚ)) orderlyRun = some p ∧
      p.status = .exited ∧ p.received ≠ [] := by
  have hend : (run processStep (processStart (gatewayConfigDefaults ℚ)) orderlyRun).map
      Process.status = some .exited := by
    decide +kernel
  have hspared : alongB processStep spared (processStart (gatewayConfigDefaults ℚ)) orderlyRun =
      true := by
    decide +kernel
  obtain ⟨p, hrun, hs⟩ := Option.map_eq_some_iff.mp hend
  refine ⟨p, hrun, hs, ?_⟩
  exact (process_survives (gatewayConfigDefaults ℚ) orderlyRun p hrun).1
    (along_of_alongB hspared) (by simp [hs])

/-- The broker closes the connection: the next ping is taken and answered with a reset, and the
    one after it kills the gateway. -/
def closedRun : List (ProcessStep ℚ) :=
  connectAndPing ++ [.reset 0, .call .ping [⟨false, .ok 2 []⟩]]

theorem process_killed_by_closed_connection :
    ∃ p : Process ℚ, run processStep (processStart (gatewayConfigDefaults ℚ)) closedRun = some p ∧
      p.status = .killed ∧ p.received = [] := by
  have hend : (run processStep (processStart (gatewayConfigDefaults ℚ)) closedRun).map
      (fun p => (p.status, p.received)) = some (.killed, []) := by
    decide +kernel
  obtain ⟨p, hrun, he⟩ := Option.map_eq_some_iff.mp hend
  obtain ⟨hs, hr⟩ := Prod.mk.inj he
  exact ⟨p, hrun, hs, hr⟩

end Proof
end EdgeFlow
