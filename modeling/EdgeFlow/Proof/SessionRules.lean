import EdgeFlow.Proof.SessionStream

/-!
# What every system call keeps, the session keeps

An assertion about the session's world that no system call, no change of the session's two fields
and no recorded send destroys holds throughout every call and every run. `SessionRule` lists what
has to be checked; the rest of the file is the session's code, once.

`A` are the packets the assertion allows to be sent: every message, and the CONNECT that the
configuration determines.
-/

set_option autoImplicit false

namespace EdgeFlow

open Lib

variable {V : Type}

/-- What `mqtt_ensure_connected_locked` asks `mqtt_send_connect` to send. -/
def connectOf (cfg : GatewayConfig V) : Sent :=
  .connect (clientId cfg) cfg.mqtt_keepalive_sec.toUInt16

namespace Proof

/-- Waiting for the environment changes nothing but what is left to come. -/
theorem nextEvent_keeps {I : Net V → Prop} {E : Halt → Net V → Prop}
    (hblocked : ∀ s, I s → E .blocked s) (hevents : ∀ s evs, I s → I { s with events := evs }) :
    Keeps I E (nextEvent : Sys V Event) := by
  intro s hs
  unfold nextEvent
  cases s.events with
  | nil => exact hblocked s hs
  | cons ev evs => exact hevents s evs hs

structure SessionRule (I : Net V → Prop) (E : Halt → Net V → Prop) (A : Sent → Prop) : Prop where
  blocked : ∀ s, I s → E .blocked s
  events : ∀ s evs, I s → I { s with events := evs }
  socket : ∀ s, I s → I (Net.logOp { s with conns := s.conns ++ [⟨[], false, false⟩] } .opened
    s.conns.length)
  close : ∀ s fd, I s → I ((s.modConn fd fun c => { c with closed := true }).logOp .closed fd)
  read : ∀ s fd resets, I s → I ((brokerMove fd resets s).logOp .read fd)
  write : ∀ fd buf, Keeps I E (sysWrite fd buf)
  fields : ∀ s fd connected, I s → I { s with fd := fd, connected := connected }
  sent : ∀ s fd x, A x → I s → I { s with sends := s.sends ++ [(fd, x)] }
  message : ∀ x, x.isConnect = false → A x
  connect : ∀ s, I s → A (connectOf s.cfg)

namespace SessionRule

variable {I : Net V → Prop} {E : Halt → Net V → Prop} {A : Sent → Prop}

/-! ## System calls -/

theorem nextEvent (h : SessionRule I E A) : Keeps I E (nextEvent : Sys V Event) :=
  nextEvent_keeps h.blocked h.events

theorem sysOk (h : SessionRule I E A) : Keeps I E (sysOk : Sys V Bool) :=
  h.nextEvent.bind fun _ => Keeps.pure _

theorem sysSocket (h : SessionRule I E A) : Keeps I E (sysSocket : Sys V (Option Nat)) := by
  refine h.sysOk.bind fun _ => Keeps.ite ?_ (Keeps.pure _)
  exact Keeps.get_bind fun _ _ => (Keeps.modify h.socket).bind fun _ => Keeps.pure _

theorem sysClose (h : SessionRule I E A) (fd : Nat) : Keeps I E (sysClose fd : Sys V Unit) :=
  Keeps.modify fun s => h.close s fd

theorem sysRead (h : SessionRule I E A) (fd size : Nat) :
    Keeps I E (sysRead fd size : Sys V (Option Bytes)) :=
  h.nextEvent.bind fun ev => (Keeps.modify fun s => h.read s fd ev.resets).bind fun _ =>
    Keeps.pure _

/-! ## Packets -/

theorem writeLoop (h : SessionRule I E A) (fd : Nat) : ∀ (fuel : Nat) (buf : Bytes),
    Keeps I E (writeLoop fd fuel buf : Sys V Bool) := by
  intro fuel
  induction fuel with
  | zero =>
    intro buf
    cases buf with
    | nil => exact Keeps.pure _
    | cons c cs => exact Triple.stop h.blocked
  | succ fuel ih =>
    intro buf
    cases buf with
    | nil => exact Keeps.pure _
    | cons c cs =>
      refine (h.write fd (c :: cs)).bind fun r => ?_
      cases r with
      | took n => exact ih _
      | eintr => exact ih _
      | error => exact Keeps.pure _

theorem mqttSend (h : SessionRule I E A) (fd : Nat) {x : Sent} (hx : A x) :
    Keeps I E (mqttSend fd x : Sys V Bool) := by
  refine Keeps.ite ?_ (Keeps.pure _)
  refine Keeps.bind (Keeps.get_bind fun s _ => h.writeLoop fd _ _) fun r =>
    Keeps.ite ?_ (Keeps.pure _)
  exact (Keeps.modify fun s => h.sent s fd x hx).bind fun _ => Keeps.pure _

theorem mqttSendConnect (h : SessionRule I E A) (fd : Nat) {client_id : Bytes}
    {keepalive_sec : UInt16} (hx : A (.connect client_id keepalive_sec)) :
    Keeps I E (mqttSendConnect fd client_id keepalive_sec : Sys V Bool) := by
  refine (h.mqttSend fd hx).bind fun r => Keeps.ite ?_ (Keeps.pure _)
  refine (h.sysRead fd 160).bind fun data => ?_
  cases data with
  | none => exact Keeps.pure _
  | some data =>
    by_cases hlen : data.length < 4
    · simp only [if_pos hlen]
      exact Keeps.pure _
    · simp only [if_neg hlen]
      exact Keeps.pure _

/-! ## Connecting -/

theorem mqttOpenTcp (h : SessionRule I E A) : Keeps I E (mqttOpenTcp : Sys V (Option Nat)) := by
  refine h.sysSocket.bind fun r => ?_
  cases r with
  | none => exact Keeps.pure _
  | some fd =>
    have hclose : Keeps I E (EdgeFlow.sysClose fd >>= fun _ => pure none : Sys V (Option Nat)) :=
      (h.sysClose fd).bind fun _ => Keeps.pure _
    refine h.sysOk.bind fun _ => Keeps.ite ?_ hclose
    exact h.sysOk.bind fun _ => Keeps.ite (Keeps.pure _) hclose

theorem mqttShutdownLocked (h : SessionRule I E A) :
    Keeps I E (mqttShutdownLocked : Sys V Unit) := by
  refine Keeps.get_bind fun s _ => ?_
  have hreset : Keeps I E (Prog.modify fun s => { s with fd := none, connected := false } :
      Sys V Unit) := Keeps.modify fun s => h.fields s none false
  cases s.fd with
  | none => exact hreset
  | some fd => exact (h.sysClose fd).bind fun _ => hreset

theorem mqttEnsureConnectedLocked (h : SessionRule I E A) :
    Keeps I E (mqttEnsureConnectedLocked : Sys V Bool) := by
  refine Keeps.get_bind fun s hs => Keeps.ite (Keeps.pure _) ?_
  refine h.mqttShutdownLocked.bind fun _ => h.mqttOpenTcp.bind fun r => ?_
  cases r with
  | none => exact (Keeps.modify fun s => h.fields s none false).bind fun _ => Keeps.pure _
  | some fd =>
    refine (Keeps.modify fun s => h.fields s (some fd) s.connected).bind fun _ =>
      (h.mqttSendConnect fd (h.connect s hs)).bind fun _ => Keeps.ite ?_ ?_
    · exact (Keeps.modify fun s => h.fields s s.fd true).bind fun _ => Keeps.pure _
    · exact h.mqttShutdownLocked.bind fun _ => Keeps.pure _

theorem sendOrShutdown (h : SessionRule I E A) {x : Sent} (hx : x.isConnect = false) :
    Keeps I E (sendOrShutdown x : Sys V Bool) := by
  refine Keeps.get_bind fun s _ => ?_
  cases s.fd with
  | none => exact Keeps.pure _
  | some fd =>
    exact (h.mqttSend fd (h.message x hx)).bind fun _ => Keeps.ite (Keeps.pure _)
      (h.mqttShutdownLocked.bind fun _ => Keeps.pure _)

/-! ## Calls and runs -/

section
variable [CDouble V]

theorem replayRows (h : SessionRule I E A) : ∀ (rows : List (StorageTelemetryRow V))
    (replayed : Nat),
    Keeps I E (replayRows replayPublish (fun _ => EdgeFlow.sysOk) replayed rows) := by
  intro rows
  induction rows with
  | nil => exact fun _ => Keeps.pure _
  | cons r rows ih =>
    intro replayed
    refine Keeps.bind (Keeps.get_bind fun _ _ => h.sendOrShutdown rfl) fun _ =>
      Keeps.ite ?_ (Keeps.pure _)
    exact h.sysOk.bind fun _ => Keeps.ite (ih _) (ih _)

/-- **Every call keeps the assertion.** -/
theorem call (h : SessionRule I E A) (call : SessionCall V) : Keeps I E call.rc := by
  have hpub : ∀ {x : Sent}, x.isConnect = false → Keeps I E
      (do if ← EdgeFlow.mqttEnsureConnectedLocked then EdgeFlow.sendOrShutdown x else pure false :
        Sys V Bool) :=
    fun hx => h.mqttEnsureConnectedLocked.bind fun _ => Keeps.ite (h.sendOrShutdown hx)
      (Keeps.pure _)
  cases call with
  | ensureConnected => exact h.mqttEnsureConnectedLocked.bind fun _ => Keeps.pure _
  | publishTelemetry p => exact (Keeps.get_bind fun _ _ => hpub rfl).bind fun _ => Keeps.pure _
  | publishHeartbeat payload =>
    exact (Keeps.get_bind fun _ _ => hpub rfl).bind fun _ => Keeps.pure _
  | replayPending rows =>
    exact Keeps.bind (h.mqttEnsureConnectedLocked.bind fun _ =>
      Keeps.ite (h.replayRows rows 0) (Keeps.pure _)) fun _ => Keeps.pure _
  | ping =>
    exact Keeps.bind (Keeps.get_bind fun _ _ => Keeps.ite (h.sendOrShutdown rfl)
      (Keeps.pure _)) fun _ => Keeps.pure _
  | shutdown => exact h.mqttShutdownLocked.bind fun _ => Keeps.pure _

/-- **So does every run**, as far as it goes. -/
theorem run (h : SessionRule I E A) : ∀ (calls : List (SessionCall V × List Event)) {s : Net V},
    I s → match sessionRun s calls with
      | (s', none) => I s'
      | (s', some e) => E e s' := by
  intro calls
  induction calls with
  | nil => exact fun hs => hs
  | cons c calls ih =>
    intro s hs
    obtain ⟨call, events⟩ := c
    have hcall := h.call call _ (h.events s events hs)
    rw [sessionRun_cons]
    rcases hx : call.rc { s with events := events } with ⟨e | u, s'⟩ <;> rw [hx] at hcall
    · exact hcall
    · exact ih hcall

end

end SessionRule

end Proof
end EdgeFlow
