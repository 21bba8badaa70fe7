import EdgeFlow.Proof.SessionCalls

/-!
# The session's sockets

The session connects and reconnects for as long as the gateway runs, and every way out of a call
has to leave the same account behind: at most one socket open, and that one the session's.

`Sockets s cur` reads the record of socket calls and nothing else of the kernel: the sockets
opened and not closed are `cur`'s, and nothing was done with a socket after its `close`. Every
function below is given by what it does to `cur` and to the session's two fields; the state
between two calls (`Idle`) is the one in which the three agree.
-/

set_option autoImplicit false

namespace EdgeFlow

open Lib

variable {V : Type}

/-- The sockets that were opened and not closed, in the order they were opened. -/
def openSockets (ops : List (SocketOp × Nat)) : List Nat :=
  (ops.filterMap fun p => if p.1 = .opened then some p.2 else none).filter
    fun fd => (SocketOp.closed, fd) ∉ ops

/-- A socket's `close` is the last call on it, so there is one at most. -/
def ClosedLast (ops : List (SocketOp × Nat)) : Prop :=
  ops.Pairwise fun a b => a.1 = .closed → b.2 ≠ a.2

namespace Proof

/-! ## The record of calls -/

section
variable {ops : List (SocketOp × Nat)} {fd : Nat}

theorem not_closed_of_open (h : fd ∈ openSockets ops) : (SocketOp.closed, fd) ∉ ops := by
  have := (List.mem_filter.mp h).2
  simpa using this

theorem closedLast_snoc (h : ClosedLast ops) (hfd : (SocketOp.closed, fd) ∉ ops) (op : SocketOp) :
    ClosedLast (ops ++ [(op, fd)]) := by
  refine List.pairwise_append.mpr ⟨h, List.pairwise_singleton _ _, ?_⟩
  intro a ha b hb hclosed hsame
  rw [List.mem_singleton.mp hb] at hsame
  have hfd_eq : fd = a.2 := hsame
  apply hfd
  rw [← hclosed, hfd_eq]
  exact ha

/-- A `read` or a `write` opens and closes nothing. -/
theorem openSockets_use (op : SocketOp) (ho : op ≠ .opened) (hc : op ≠ .closed) :
    openSockets (ops ++ [(op, fd)]) = openSockets ops := by
  unfold openSockets
  simp [ho, Ne.symm hc]

theorem openSockets_opened (hfd : ∀ op, (op, fd) ∉ ops) :
    openSockets (ops ++ [(.opened, fd)]) = openSockets ops ++ [fd] := by
  unfold openSockets
  simp [List.filter_append, hfd]

theorem openSockets_closed :
    openSockets (ops ++ [(.closed, fd)]) = (openSockets ops).filter fun i => i ≠ fd := by
  unfold openSockets
  rw [List.filter_filter]
  simp [List.filterMap_append, and_comm]

end

/-- At every point of a run: `cur` is the one socket open, if any is. -/
structure Sockets (s : Net V) (cur : Option Nat) : Prop where
  fresh : ∀ p ∈ s.ops, p.2 < s.conns.length
  opened : openSockets s.ops = cur.toList
  closedLast : ClosedLast s.ops

section
variable {s s' : Net V} {cur : Option Nat} {fd : Nat}

/-- A state that differs in nothing the record speaks of. -/
theorem Sockets.congr (h : Sockets s cur) (hops : s'.ops = s.ops)
    (hconns : s'.conns.length = s.conns.length) : Sockets s' cur :=
  ⟨fun p hp => hconns ▸ h.fresh p (hops ▸ hp), hops ▸ h.opened, hops ▸ h.closedLast⟩

theorem Sockets.mem (h : Sockets s (some fd)) : fd ∈ openSockets s.ops := by
  rw [h.opened]
  exact List.mem_singleton_self fd

theorem Sockets.lt (h : Sockets s (some fd)) : fd < s.conns.length := by
  have hmem := (List.mem_filter.mp h.mem).1
  obtain ⟨p, hp, he⟩ := List.mem_filterMap.mp hmem
  split at he
  · cases he
    exact h.fresh p hp
  · cases he

theorem Sockets.fresh_snoc (h : Sockets s cur) (op : SocketOp) (hfd : fd < s'.conns.length)
    (hops : s'.ops = s.ops ++ [(op, fd)]) (hconns : s.conns.length ≤ s'.conns.length) :
    ∀ p ∈ s'.ops, p.2 < s'.conns.length := by
  intro p hp
  rw [hops] at hp
  rcases List.mem_append.mp hp with hp | hp
  · exact Nat.lt_of_lt_of_le (h.fresh p hp) hconns
  · rw [List.mem_singleton.mp hp]
    exact hfd

theorem Sockets.use (h : Sockets s (some fd)) (op : SocketOp) (ho : op ≠ .opened)
    (hc : op ≠ .closed) (hops : s'.ops = s.ops ++ [(op, fd)])
    (hconns : s'.conns.length = s.conns.length) : Sockets s' (some fd) := by
  refine ⟨h.fresh_snoc op (hconns ▸ h.lt) hops hconns.ge, ?_, ?_⟩
  · rw [hops, openSockets_use op ho hc]
    exact h.opened
  · rw [hops]
    exact closedLast_snoc h.closedLast (not_closed_of_open h.mem) op

theorem Sockets.close (h : Sockets s (some fd)) (hops : s'.ops = s.ops ++ [(.closed, fd)])
    (hconns : s'.conns.length = s.conns.length) : Sockets s' none := by
  refine ⟨h.fresh_snoc .closed (hconns ▸ h.lt) hops hconns.ge, ?_, ?_⟩
  · rw [hops, openSockets_closed, h.opened]
    simp
  · rw [hops]
    exact closedLast_snoc h.closedLast (not_closed_of_open h.mem) .closed

/-- A new socket: its number is one that no call has been made on. -/
theorem Sockets.socket (h : Sockets s none) (hops : s'.ops = s.ops ++ [(.opened, s.conns.length)])
    (hconns : s'.conns.length = s.conns.length + 1) : Sockets s' (some s.conns.length) := by
  have hnew : ∀ op, (op, s.conns.length) ∉ s.ops := fun op hm => Nat.lt_irrefl _ (h.fresh _ hm)
  refine ⟨h.fresh_snoc .opened (by rw [hconns]; exact Nat.lt_succ_self _) hops
    (by rw [hconns]; exact Nat.le_succ _), ?_, ?_⟩
  · rw [hops, openSockets_opened hnew, h.opened]
    rfl
  · rw [hops]
    exact closedLast_snoc h.closedLast (hnew .closed) .opened

end

/-! ## System calls -/

/-- The sockets and the session's two fields. -/
structure At (cur fd : Option Nat) (connected : Bool) (s : Net V) : Prop where
  sockets : Sockets s cur
  fd_eq : s.fd = fd
  connected : s.connected = connected

/-- A call that has not returned. -/
def Inside (_ : Halt) (s : Net V) : Prop := ∃ cur, Sockets s cur

section
variable {cur f : Option Nat} {b : Bool} {fd : Nat}

theorem At.inside {s : Net V} (h : At cur f b s) (e : Halt) : Inside e s := ⟨cur, h.sockets⟩

theorem length_modConn (s : Net V) (fd : Nat) (g : Conn → Conn) :
    (s.modConn fd g).conns.length = s.conns.length := List.length_modify g s.conns fd

theorem At.brokerMove {s : Net V} (h : At cur f b s) (fd : Nat) (resets : Bool) :
    At cur f b (brokerMove fd resets s) := by
  unfold EdgeFlow.brokerMove
  split
  · exact ⟨h.sockets.congr rfl (length_modConn s fd _), h.fd_eq, h.connected⟩
  · exact h

theorem nextEvent_at :
    Triple (At cur f b) (nextEvent : Sys V Event) (fun _ => At cur f b) Inside := by
  intro s h
  unfold nextEvent
  cases s.events with
  | nil => exact h.inside .blocked
  | cons ev evs => exact ⟨h.sockets.congr rfl rfl, h.fd_eq, h.connected⟩

theorem sysOk_at : Triple (At cur f b) (sysOk : Sys V Bool) (fun _ => At cur f b) Inside :=
  Triple.bind nextEvent_at fun _ => Triple.pure fun _ h => h

theorem sysSocket_at : Triple (At none f b) (sysSocket : Sys V (Option Nat))
    (fun r => At r f b) Inside := by
  refine Triple.bind sysOk_at fun ok => ?_
  cases ok with
  | false => exact Triple.pure fun _ h => h
  | true =>
    intro s h
    exact ⟨h.sockets.socket rfl (by simp [Net.logOp]), h.fd_eq, h.connected⟩

theorem sysClose_at {E : Halt → Net V → Prop} :
    Triple (At (some fd) f b) (sysClose fd) (fun _ => At none f b) E :=
  Triple.modify fun s h =>
    ⟨h.sockets.close rfl (length_modConn s fd _), h.fd_eq, h.connected⟩

theorem sysRead_at (size : Nat) : Triple (At (some fd) f b) (sysRead fd size : Sys V (Option Bytes))
    (fun _ => At (some fd) f b) Inside := by
  refine Triple.bind nextEvent_at fun ev => ?_
  refine Triple.bind (Q := fun _ => At (some fd) f b) (Triple.modify fun s h => ?_) fun _ =>
    Triple.pure fun _ h => h
  have hb := h.brokerMove fd ev.resets
  exact ⟨hb.sockets.use .read (by simp) (by simp) rfl rfl, hb.fd_eq, hb.connected⟩

theorem sysWrite_at (buf : Bytes) : Triple (At (some fd) f b) (sysWrite fd buf : Sys V WriteResult)
    (fun _ => At (some fd) f b) Inside := by
  refine Triple.bind nextEvent_at fun ev => ?_
  refine Triple.bind (Q := fun _ => At (some fd) f b)
    (Triple.modify fun s h => h.brokerMove fd ev.resets) fun _ => ?_
  refine Triple.get_bind fun s₀ h => ?_
  refine Triple.bind (Q := fun _ => At (some fd) f b) (Triple.modify fun s he => ?_) fun _ => ?_
  · subst he
    exact ⟨h.sockets.use .wrote (by simp) (by simp) rfl rfl, h.fd_eq, h.connected⟩
  · split_ifs
    · exact Triple.pure fun _ h => h
    · exact Triple.stop fun _ h => h.inside .killed
    · cases ev.answer with
      | ok n data =>
        refine Triple.bind (Q := fun _ => At (some fd) f b) (Triple.modify fun s h => ?_) fun _ =>
          Triple.pure fun _ h => h
        exact ⟨h.sockets.congr rfl (length_modConn s fd _), h.fd_eq, h.connected⟩
      | eintr => exact Triple.pure fun _ h => h
      | fail => exact Triple.pure fun _ h => h

/-! ## Writing packets and connecting -/

theorem writeLoop_at : ∀ (fuel : Nat) (buf : Bytes),
    Triple (At (some fd) f b) (writeLoop fd fuel buf : Sys V Bool) (fun _ => At (some fd) f b)
      Inside := by
  intro fuel
  induction fuel with
  | zero =>
    intro buf
    cases buf with
    | nil => exact Triple.pure fun _ h => h
    | cons c cs => exact Triple.stop fun _ h => h.inside .blocked
  | succ fuel ih =>
    intro buf
    cases buf with
    | nil => exact Triple.pure fun _ h => h
    | cons c cs =>
      refine Triple.bind (sysWrite_at (c :: cs)) fun r => ?_
      cases r with
      | took n => exact ih _
      | eintr => exact ih _
      | error => exact Triple.pure fun _ h => h

theorem mqttSend_at (x : Sent) : Triple (At (some fd) f b) (mqttSend fd x : Sys V Bool)
    (fun _ => At (some fd) f b) Inside := by
  unfold mqttSend
  split
  · have hwrite : Triple (At (some fd) f b) (mqttWriteAll fd x.bytes : Sys V Bool)
        (fun _ => At (some fd) f b) Inside :=
      Triple.get_bind fun s₀ h => (writeLoop_at _ _).starting h
    refine Triple.bind hwrite fun r => ?_
    cases r with
    | false => exact Triple.pure fun _ h => h
    | true =>
      refine Triple.bind (Q := fun _ => At (some fd) f b) (Triple.modify fun s h => ?_) fun _ =>
        Triple.pure fun _ h => h
      exact ⟨h.sockets.congr rfl rfl, h.fd_eq, h.connected⟩
  · exact Triple.pure fun _ h => h

theorem mqttSendConnect_at (client_id : Bytes) (keepalive_sec : UInt16) :
    Triple (At (some fd) f b) (mqttSendConnect fd client_id keepalive_sec : Sys V Bool)
      (fun _ => At (some fd) f b) Inside := by
  refine Triple.bind (mqttSend_at _) fun r => ?_
  cases r with
  | false => exact Triple.pure fun _ h => h
  | true =>
    refine Triple.bind (sysRead_at 160) fun data => ?_
    cases data with
    | none => exact Triple.pure fun _ h => h
    | some data =>
      by_cases hlen : data.length < 4
      · simp only [if_pos hlen]
        exact Triple.pure fun _ h => h
      · simp only [if_neg hlen]
        exact Triple.pure fun _ h => h

/-- `mqtt_open_tcp` closes its socket on the two ways out on which it does not return it. -/
theorem mqttOpenTcp_at : Triple (At none f b) (mqttOpenTcp : Sys V (Option Nat))
    (fun r => At r f b) Inside := by
  refine Triple.bind sysSocket_at fun r => ?_
  cases r with
  | none => exact Triple.pure fun _ h => h
  | some fd =>
    have hclose : Triple (At (some fd) f b)
        (sysClose fd >>= fun _ => pure none : Sys V (Option Nat)) (fun r => At r f b) Inside :=
      Triple.bind sysClose_at fun _ => Triple.pure fun _ h => h
    refine Triple.bind sysOk_at fun ok => ?_
    cases ok with
    | false => exact hclose
    | true =>
      refine Triple.bind sysOk_at fun ok => ?_
      cases ok with
      | false => exact hclose
      | true => exact Triple.pure fun _ h => h

end

/-! ## Between two calls -/

/-- The session is connected on the one socket that is open, or there is neither. -/
def Idle (s : Net V) : Prop := ∃ f : Option Nat, At f f f.isSome s

/-- Disconnected, with no socket open. -/
def Down (s : Net V) : Prop := At none none false s

theorem Down.idle {s : Net V} (h : Down s) : Idle s := ⟨none, h⟩

/-- What a call says of its failure. -/
def Failsafe (r : Bool) (s : Net V) : Prop := Idle s ∧ (r = false → Down s)

theorem Down.failsafe {s : Net V} (h : Down s) (r : Bool) : Failsafe r s := ⟨h.idle, fun _ => h⟩

theorem mqttShutdownLocked_at {f : Option Nat} {b : Bool} {E : Halt → Net V → Prop} :
    Triple (At f f b) mqttShutdownLocked (fun _ => Down) E := by
  refine Triple.get_bind fun s₀ h => ?_
  rw [h.fd_eq]
  have hreset : Triple (At none f b)
      (Prog.modify fun s : Net V => { s with fd := none, connected := false }) (fun _ => Down) E :=
    Triple.modify fun s h => ⟨h.sockets.congr rfl rfl, rfl, rfl⟩
  cases f with
  | none => exact hreset.starting h
  | some fd =>
    refine Triple.bind (Q := fun _ => At none (some fd) b) ?_ fun _ => hreset
    exact sysClose_at.starting h

theorem mqttEnsureConnectedLocked_at :
    Triple Idle (mqttEnsureConnectedLocked : Sys V Bool) Failsafe Inside := by
  refine Triple.get_bind fun s₀ hidle => ?_
  obtain ⟨f, h⟩ := id hidle
  split
  · refine Triple.pure fun s he => ?_
    subst he
    exact ⟨hidle, by simp⟩
  · refine Triple.bind (Q := fun _ => Down) ?_ fun _ => ?_
    · exact mqttShutdownLocked_at.starting h
    refine Triple.bind mqttOpenTcp_at fun r => ?_
    cases r with
    | none =>
      refine Triple.bind (Q := fun _ => Down) (Triple.modify fun s h => ?_) fun _ =>
        Triple.pure fun s h => h.failsafe false
      exact ⟨h.sockets.congr rfl rfl, rfl, rfl⟩
    | some fd =>
      -- from here on the descriptor is the session's, so its shutdown finds the socket
      refine Triple.bind (Q := fun _ => At (some fd) (some fd) false) (Triple.modify fun s h => ?_)
        fun _ => Triple.bind (mqttSendConnect_at _ _) fun r => ?_
      · exact ⟨h.sockets.congr rfl rfl, rfl, h.connected⟩
      cases r with
      | true =>
        refine Triple.bind (Q := fun _ => Idle) (Triple.modify fun s h => ?_) fun _ =>
          Triple.pure fun s h => ⟨h, by simp⟩
        exact ⟨some fd, h.sockets.congr rfl rfl, h.fd_eq, rfl⟩
      | false =>
        exact Triple.bind mqttShutdownLocked_at fun _ => Triple.pure fun s h => h.failsafe false

theorem sendOrShutdown_at (x : Sent) :
    Triple Idle (sendOrShutdown x : Sys V Bool) Failsafe Inside := by
  refine Triple.get_bind fun s₀ hidle => ?_
  obtain ⟨f, h⟩ := hidle
  rw [h.fd_eq]
  cases f with
  | none =>
    refine Triple.pure fun s he => ?_
    subst he
    exact Down.failsafe h false
  | some fd =>
    refine Triple.bind ((mqttSend_at x).starting h) fun r => ?_
    cases r with
    | true => exact Triple.pure fun s h => ⟨⟨some fd, h⟩, by simp⟩
    | false =>
      exact Triple.bind mqttShutdownLocked_at fun _ => Triple.pure fun s h => h.failsafe false

/-- Connect if need be, then send. -/
theorem connected_then_send_at (x : Sent) :
    Triple Idle (do if ← mqttEnsureConnectedLocked then sendOrShutdown x else pure false :
      Sys V Bool) Failsafe Inside := by
  refine Triple.bind mqttEnsureConnectedLocked_at fun ok => ?_
  cases ok with
  | true => exact (sendOrShutdown_at x).pre fun _ h => h.1
  | false => exact Triple.pure fun s h => h

theorem Idle.events {s : Net V} (h : Idle s) (events : List Event) :
    Idle { s with events := events } := by
  obtain ⟨f, hf⟩ := h
  exact ⟨f, hf.sockets.congr rfl rfl, hf.fd_eq, hf.connected⟩

theorem idle_init (cfg : GatewayConfig V) (handled : List Signal) :
    Idle (mqttSessionInit cfg handled) :=
  ⟨none, ⟨by simp [mqttSessionInit], rfl, List.Pairwise.nil⟩, rfl, rfl⟩

/-! ## The calls -/

section
variable [CDouble V]

theorem replayRows_at : ∀ (rows : List (StorageTelemetryRow V)) (replayed : Nat),
    Triple Idle (replayRows replayPublish (fun _ => sysOk) replayed rows) (fun _ => Idle)
      Inside := by
  intro rows
  induction rows with
  | nil => exact fun _ => Triple.pure fun _ h => h
  | cons r rows ih =>
    intro replayed
    have hpublish : Triple Idle (replayPublish r.point : Sys V Bool) (fun _ => Idle) Inside :=
      Triple.get_bind fun s₀ h => (sendOrShutdown_at _).conseq (fun _ he => he ▸ h)
        (fun _ _ h => h.1) fun _ _ h => h
    have hmark : Triple Idle (sysOk : Sys V Bool) (fun _ => Idle) Inside := by
      intro s h
      obtain ⟨f, hf⟩ := h
      exact (sysOk_at.post fun _ _ h => ⟨f, h⟩) s hf
    refine Triple.bind hpublish fun ok => ?_
    cases ok with
    | false => exact Triple.pure fun _ h => h
    | true =>
      refine Triple.bind hmark fun ok => ?_
      cases ok with
      | true => exact ih _
      | false => exact ih _

/-- **A call leaves the session idle, and one that returns `-1` leaves it down.** -/
theorem SessionCall.rc_at (call : SessionCall V) :
    Triple Idle call.rc (fun r s => Idle s ∧ (r = -1 → Down s)) Inside := by
  -- the four calls that return `0` or `-1`
  have hcode : ∀ {x : Sys V Bool}, Triple Idle x Failsafe Inside →
      Triple Idle (x >>= fun ok => pure (if ok = true then 0 else -1) : Sys V Int)
        (fun r s => Idle s ∧ (r = -1 → Down s)) Inside := by
    intro x hx
    refine Triple.bind hx fun ok => Triple.pure fun s h => ⟨h.1, fun hr => h.2 ?_⟩
    cases ok with
    | false => rfl
    | true => simp at hr
  cases call with
  | ensureConnected => exact hcode mqttEnsureConnectedLocked_at
  | publishTelemetry p =>
    exact hcode (Triple.get_bind fun s₀ h => (connected_then_send_at _).starting h)
  | publishHeartbeat payload =>
    exact hcode (Triple.get_bind fun s₀ h => (connected_then_send_at _).starting h)
  | replayPending rows =>
    -- it returns a count
    have hcount : Triple Idle (mqttReplayLocked rows : Sys V Nat) (fun _ => Idle) Inside := by
      refine Triple.bind mqttEnsureConnectedLocked_at fun ok => ?_
      cases ok with
      | true =>
        exact (replayRows_at rows 0).pre fun _ h => h.1
      | false => exact Triple.pure fun s h => h.1
    refine Triple.bind hcount fun n => Triple.pure fun s h => ⟨h, fun hr => ?_⟩
    omega
  | ping =>
    refine hcode (Triple.get_bind fun s₀ hidle => ?_)
    split
    · exact (sendOrShutdown_at _).starting hidle
    · rename_i hup
      refine Triple.pure fun s he => ?_
      subst he
      obtain ⟨f, h⟩ := hidle
      cases f with
      | none => exact Down.failsafe h false
      | some fd => exact absurd (by simp [h.fd_eq, h.connected]) hup
  | shutdown =>
    refine Triple.bind (Q := fun _ => Down) (fun s h => ?_) fun _ =>
      Triple.pure fun s h => ⟨h.idle, fun _ => h⟩
    obtain ⟨f, hf⟩ := h
    exact mqttShutdownLocked_at s hf

/-! ## Runs -/

/-- What a run leaves: an idle session, or a call that has not returned. -/
theorem sessionRun_at : ∀ (calls : List (SessionCall V × List Event)) {s : Net V}, Idle s →
    match sessionRun s calls with
      | (s', none) => Idle s'
      | (s', some h) => Inside h s' := by
  intro calls
  induction calls with
  | nil => exact fun h => h
  | cons c calls ih =>
    intro s hs
    obtain ⟨call, events⟩ := c
    have hcall := SessionCall.rc_at call _ (hs.events events)
    rw [sessionRun_cons]
    rcases hrc : call.rc { s with events := events } with ⟨h | r, s'⟩ <;> rw [hrc] at hcall
    · exact hcall
    · exact ih hcall.1

/-- **Socket discipline.** After any calls, with any answers from the outside: nothing has been
    done with a socket after its `close`, in the middle of a call too. When the last call has
    returned, `connected` says whether there is a descriptor, and the sockets open are that
    descriptor's and no other; and whatever call comes next, if it returns `-1` it leaves the
    session disconnected with no socket open. -/
theorem session_socket_discipline (cfg : GatewayConfig V) (handled : List Signal)
    (calls : List (SessionCall V × List Event)) :
    let out := sessionRun (mqttSessionInit cfg handled) calls
    ClosedLast out.1.ops ∧
      (out.2 = none →
        (out.1.connected = true ↔ out.1.fd.isSome = true) ∧
        openSockets out.1.ops = (if out.1.connected then out.1.fd.toList else []) ∧
        ∀ (call : SessionCall V) (events : List Event) (s' : Net V),
          call.rc { out.1 with events := events } = (.ok (-1), s') →
            s'.connected = false ∧ s'.fd = none ∧ openSockets s'.ops = []) := by
  intro out
  have hrun := sessionRun_at calls (idle_init cfg handled)
  rcases hout : out with ⟨s, halt⟩
  rw [show sessionRun (mqttSessionInit cfg handled) calls = (s, halt) from hout] at hrun
  cases halt with
  | some h =>
    obtain ⟨cur, hcur⟩ := hrun
    exact ⟨hcur.closedLast, fun hn => absurd hn (by simp)⟩
  | none =>
    obtain ⟨f, hf⟩ := id hrun
    refine ⟨hf.sockets.closedLast, fun _ => ⟨?_, ?_, fun call events s' hcall => ?_⟩⟩
    · rw [hf.connected, hf.fd_eq]
    · rw [hf.sockets.opened, hf.connected, hf.fd_eq]
      cases f <;> rfl
    · have hrc := SessionCall.rc_at call _ (Idle.events hrun events)
      rw [hcall] at hrc
      have hdown : Down s' := hrc.2 rfl
      exact ⟨hdown.connected, hdown.fd_eq, hdown.sockets.opened⟩

end

/-- The session connects; its next ping meets a broken connection. -/
theorem session_socket_discipline_ping :
    ∃ s' : Net ℚ, s'.connected = false ∧ s'.fd = none ∧ openSockets s'.ops = [] ∧
      s'.ops = [(.opened, 0), (.wrote, 0), (.read, 0), (.wrote, 0), (.closed, 0)] := by
  let calls : List (SessionCall ℚ × List Event) := [(.ensureConnected,
    [⟨false, .ok 0 []⟩, ⟨false, .ok 0 []⟩, ⟨false, .ok 0 []⟩, ⟨false, .ok 29 []⟩,
      ⟨false, .ok 0 [0x20, 0x02, 0x00, 0x00]⟩])]
  let s := (sessionRun (mqttSessionInit (gatewayConfigDefaults ℚ) []) calls).1
  have hrun : (sessionRun (mqttSessionInit (gatewayConfigDefaults ℚ) []) calls).2 = none := by
    decide +kernel
  have hping : (Prog.result (SessionCall.rc (V := ℚ) .ping)
      { s with events := [⟨false, .fail⟩] }).map (fun r => (r.1, r.2.ops)) =
        some (-1, [(.opened, 0), (.wrote, 0), (.read, 0), (.wrote, 0), (.closed, 0)]) := by
    decide +kernel
  obtain ⟨⟨r, s'⟩, hres, he⟩ := Option.map_eq_some_iff.mp hping
  obtain ⟨hr, hops⟩ := Prod.mk.inj he
  have hcall : SessionCall.rc (V := ℚ) .ping { s with events := [⟨false, .fail⟩] }
      = (.ok (-1), s') := by
    rw [Prog.apply_of_result hres]
    exact congrArg (fun n => (Except.ok n, s')) hr
  obtain ⟨-, hfree⟩ := session_socket_discipline (gatewayConfigDefaults ℚ) [] calls
  obtain ⟨hcon, hfd, hopen⟩ := (hfree hrun).2.2 .ping [⟨false, .fail⟩] s' hcall
  exact ⟨s', hcon, hfd, hopen, hops⟩

end Proof
end EdgeFlow
