import EdgeFlow.Proof.ConnectPacket

/-!
# When nothing goes wrong, the session's calls return

The other files say what a call has done *if* it returned; here is when it does. `calmEvent` is
an answer that every system call is content with: the broker stays, a `write` takes all it is
given, and the bytes of a `read` are a CONNACK. From a session whose connection the broker has
not closed, enough of those answers bring every call to its end, and to success.

`Fair cur f b n s` is the state in between: the peer of `cur` is there, the session's fields are
`f` and `b`, and there are `n` calm answers left at least. The triples below leave no way to
stop, so they are the total ones.
-/

set_option autoImplicit false

namespace EdgeFlow

open Lib

variable {V : Type}

def calmEvent : Event := ⟨false, .ok 1024 [0x20, 0x02, 0x00, 0x00]⟩

/-- The broker has not closed the session's connection. -/
def Net.peerThere (s : Net V) : Prop := ∀ fd, s.fd = some fd → s.goneAt fd = false

namespace Proof

structure Fair (cur f : Option Nat) (b : Bool) (n : Nat) (s : Net V) : Prop where
  peer : ∀ i, cur = some i → s.goneAt i = false
  fd_eq : s.fd = f
  connected : s.connected = b
  calm : ∃ m, n ≤ m ∧ s.events = List.replicate m calmEvent

section
variable {cur f : Option Nat} {b : Bool} {n : Nat} {fd : Nat}

theorem Fair.mono {s : Net V} {m : Nat} (h : Fair cur f b n s) (hm : m ≤ n) : Fair cur f b m s := by
  obtain ⟨k, hk, he⟩ := h.calm
  exact ⟨h.peer, h.fd_eq, h.connected, k, Nat.le_trans hm hk, he⟩

/-! ## System calls -/

theorem nextEvent_fair : Triple (Fair cur f b (n + 1)) (nextEvent : Sys V Event)
    (fun ev s => ev = calmEvent ∧ Fair cur f b n s) (fun _ _ => False) := by
  intro s h
  obtain ⟨m, hm, he⟩ := h.calm
  cases m with
  | zero => omega
  | succ m =>
    rw [List.replicate_succ] at he
    rw [nextEvent_cons he]
    exact ⟨rfl, h.peer, h.fd_eq, h.connected, m, Nat.le_of_succ_le_succ hm, rfl⟩

theorem sysOk_fair : Triple (Fair cur f b (n + 1)) (sysOk : Sys V Bool)
    (fun r s => r = true ∧ Fair cur f b n s) (fun _ _ => False) := by
  refine Triple.bind nextEvent_fair fun ev => Triple.pure fun s h => ?_
  obtain ⟨rfl, hf⟩ := h
  exact ⟨rfl, hf⟩

theorem sysSocket_fair : Triple (Fair none f b (n + 1)) (sysSocket : Sys V (Option Nat))
    (fun r s => ∃ fd, r = some fd ∧ Fair (some fd) f b n s) (fun _ _ => False) := by
  refine Triple.bind_at sysOk_fair fun r s₁ h₁ => ?_
  obtain ⟨rfl, hf⟩ := h₁
  intro s hs
  subst hs
  refine ⟨s.conns.length, rfl, fun i hi => ?_, hf.fd_eq, hf.connected, hf.calm⟩
  cases hi
  simp [Net.goneAt, Net.logOp]

/-- What touches neither the broker's ends nor the session's fields nor the events. -/
theorem Fair.congr {s s' : Net V} (h : Fair cur f b n s) (hgone : ∀ i, s'.goneAt i = s.goneAt i)
    (hfd : s'.fd = s.fd) (hcon : s'.connected = s.connected) (hev : s'.events = s.events) :
    Fair cur f b n s' :=
  ⟨fun i hi => (hgone i).trans (h.peer i hi), hfd.trans h.fd_eq, hcon.trans h.connected,
    hev ▸ h.calm⟩

theorem goneAt_modConn (s : Net V) (fd : Nat) {g : Conn → Conn} (hg : ∀ c, (g c).gone = c.gone)
    (i : Nat) : (s.modConn fd g).goneAt i = s.goneAt i := by
  unfold Net.goneAt Net.modConn
  rw [List.getElem?_modify]
  rcases s.conns[i]? with _ | c
  · rfl
  · by_cases hi : fd = i
    · simp [hi, hg]
    · simp [hi]

theorem sysRead_fair (size : Nat) (hsize : 4 ≤ size) : Triple (Fair (some fd) f b (n + 1))
    (sysRead fd size : Sys V (Option Bytes))
    (fun r s => r = some [0x20, 0x02, 0x00, 0x00] ∧ Fair (some fd) f b n s)
    (fun _ _ => False) := by
  refine Triple.bind_at nextEvent_fair fun ev s₁ h₁ => ?_
  obtain ⟨rfl, hf⟩ := h₁
  intro s hs
  subst hs
  refine ⟨?_, hf.congr (fun _ => rfl) rfl rfl rfl⟩
  show some (List.take size _) = _
  rw [List.take_of_length_le hsize]

/-- A `write` takes the whole buffer. -/
theorem sysWrite_fair {buf : Bytes} (hne : buf ≠ []) (hlen : buf.length ≤ 1024) :
    Triple (Fair (some fd) f b (n + 1)) (sysWrite fd buf : Sys V WriteResult)
      (fun r s => r = .took buf.length ∧ Fair (some fd) f b n s) (fun _ _ => False) := by
  refine Triple.bind_at nextEvent_fair fun ev s₁ h₁ => ?_
  obtain ⟨rfl, hf⟩ := h₁
  intro s hs
  subst hs
  have hpeer : (brokerMove fd calmEvent.resets s).goneAt fd = false := hf.peer fd rfl
  have htake : max 1 (min 1024 buf.length) = buf.length := by
    have hpos : 0 < buf.length := List.length_pos_iff.mpr hne
    omega
  simp only [Prog.bind_apply, Prog.modify_apply, Prog.get_apply]
  rw [if_neg (by rw [hpeer]; exact Bool.false_ne_true)]
  refine ⟨congrArg WriteResult.took htake, hf.congr (fun i => ?_) rfl rfl rfl⟩
  refine (goneAt_modConn _ fd ?_ i).trans rfl
  exact fun _ => rfl

/-! ## Packets -/

theorem writeLoop_fair (fuel : Nat) {buf : Bytes} (hlen : buf.length ≤ 1024) :
    Triple (Fair (some fd) f b (n + 1)) (writeLoop fd (fuel + 1) buf : Sys V Bool)
      (fun r s => r = true ∧ Fair (some fd) f b n s) (fun _ _ => False) := by
  cases buf with
  | nil => exact Triple.pure fun s h => ⟨rfl, h.mono (Nat.le_succ n)⟩
  | cons c cs =>
    refine Triple.bind_at (sysWrite_fair (by simp) hlen) fun r s₁ h₁ => ?_
    obtain ⟨rfl, hf⟩ := h₁
    -- nothing is left of the buffer
    show Triple _ (writeLoop fd fuel ((c :: cs).drop (c :: cs).length)) _ _
    rw [List.drop_length]
    have hdone : (writeLoop fd fuel [] : Sys V Bool) = pure true := by cases fuel <;> rfl
    rw [hdone]
    exact Triple.pure fun s hs => ⟨rfl, hs ▸ hf⟩

/-- The size check of each sender leaves at most 1024 bytes. -/
theorem length_bytes_le {x : Sent} (h : x.fits = true) : x.bytes.length ≤ 1024 := by
  cases x with
  | connect client_id keepalive_sec => exact (length_connectBytes_le h).trans (by decide)
  | publish topic payload =>
    simp only [Sent.fits, decide_eq_true_eq] at h
    simp only [Sent.bytes, publishBytes, List.length_cons, List.length_append, length_word16]
    omega
  | ping => decide

theorem mqttSend_fair {x : Sent} (hfits : x.fits = true) :
    Triple (Fair (some fd) f b (n + 1)) (mqttSend fd x : Sys V Bool)
      (fun r s => r = true ∧ Fair (some fd) f b n s) (fun _ _ => False) := by
  unfold mqttSend
  rw [if_pos hfits]
  have hwrite : Triple (Fair (some fd) f b (n + 1)) (mqttWriteAll fd x.bytes : Sys V Bool)
      (fun r s => r = true ∧ Fair (some fd) f b n s) (fun _ _ => False) := by
    refine Triple.get_bind fun s₀ h => ?_
    obtain ⟨m, hm, he⟩ := h.calm
    rw [he, List.length_replicate]
    cases m with
    | zero => omega
    | succ m =>
      exact (writeLoop_fair m (length_bytes_le hfits)).starting h
  refine Triple.bind_at hwrite fun r s₁ h₁ => ?_
  obtain ⟨rfl, hf⟩ := h₁
  intro s hs
  subst hs
  exact ⟨rfl, hf.congr (fun _ => rfl) rfl rfl rfl⟩

theorem mqttSendConnect_fair {client_id : Bytes} {keepalive_sec : UInt16}
    (hfits : (Sent.connect client_id keepalive_sec).fits = true) :
    Triple (Fair (some fd) f b (n + 2)) (mqttSendConnect fd client_id keepalive_sec : Sys V Bool)
      (fun r s => r = true ∧ Fair (some fd) f b n s) (fun _ _ => False) := by
  refine Triple.bind_at (mqttSend_fair hfits) fun r s₁ h₁ => ?_
  obtain ⟨rfl, hf₁⟩ := h₁
  refine Triple.bind_at ((sysRead_fair 160 (by decide)).starting hf₁) fun data s₂ h₂ => ?_
  obtain ⟨rfl, hf₂⟩ := h₂
  exact Triple.pure fun s hs => ⟨rfl, hs ▸ hf₂⟩

/-! ## Connecting -/

theorem mqttOpenTcp_fair : Triple (Fair none f b (n + 3)) (mqttOpenTcp : Sys V (Option Nat))
    (fun r s => ∃ fd, r = some fd ∧ Fair (some fd) f b n s) (fun _ _ => False) := by
  refine Triple.bind_at sysSocket_fair fun r s₁ h₁ => ?_
  obtain ⟨fd, rfl, hf₁⟩ := h₁
  refine Triple.bind_at (sysOk_fair.starting hf₁) fun r s₂ h₂ => ?_
  obtain ⟨rfl, hf₂⟩ := h₂
  refine Triple.bind_at (sysOk_fair.starting hf₂) fun r s₃ h₃ => ?_
  obtain ⟨rfl, hf₃⟩ := h₃
  exact Triple.pure fun s hs => ⟨fd, rfl, hs ▸ hf₃⟩

theorem mqttShutdownLocked_fair : Triple (Fair cur f b n) (mqttShutdownLocked : Sys V Unit)
    (fun _ => Fair none none false n) (fun _ _ => False) := by
  refine Triple.get_bind fun s₀ h => ?_
  have hnone : ∀ i, (none : Option Nat) = some i → ∀ s : Net V, s.goneAt i = false :=
    fun i hi => by cases hi
  cases s₀.fd with
  | none =>
    refine Triple.modify fun s hs => ?_
    subst hs
    exact ⟨fun i hi => hnone i hi _, rfl, rfl, h.calm⟩
  | some fd =>
    refine Triple.bind (Q := fun _ s => s.events = s₀.events) (Triple.modify fun s hs => ?_)
      fun _ => Triple.modify fun s hs => ?_
    · subst hs
      rfl
    · exact ⟨fun i hi => hnone i hi _, rfl, rfl, hs ▸ h.calm⟩

/-- **From calm answers comes a connection.** -/
theorem mqttEnsureConnectedLocked_fair : Triple (Fair f f b (n + 5))
    (mqttEnsureConnectedLocked : Sys V Bool)
    (fun r s => r = true ∧ ∃ fd, Fair (some fd) (some fd) true n s) (fun _ _ => False) := by
  refine Triple.get_bind fun s₀ h => ?_
  by_cases hup : (s₀.connected && s₀.fd.isSome) = true
  · simp only [if_pos hup]
    obtain ⟨hcon, hsome⟩ := Bool.and_eq_true_iff.mp hup
    refine Triple.pure fun s hs => ⟨rfl, ?_⟩
    subst hs
    have hfair := h.mono (Nat.le_add_right n 5)
    rw [← h.connected, hcon, ← h.fd_eq] at hfair
    obtain ⟨fd, hfd⟩ := Option.isSome_iff_exists.mp hsome
    exact ⟨fd, hfd ▸ hfair⟩
  · simp only [if_neg hup]
    refine Triple.bind (mqttShutdownLocked_fair.starting h) fun _ =>
      Triple.bind_at mqttOpenTcp_fair fun r s₁ h₁ => ?_
    obtain ⟨fd, rfl, hf₁⟩ := h₁
    refine Triple.bind (Q := fun _ => Fair (some fd) (some fd) false (n + 2))
      (Triple.modify fun s hs => ?_) fun _ => ?_
    · subst hs
      exact ⟨hf₁.peer, rfl, hf₁.connected, hf₁.calm⟩
    refine Triple.bind_at (mqttSendConnect_fair (connectOf_fits s₀.cfg)) fun r s₂ h₂ => ?_
    obtain ⟨rfl, hf₂⟩ := h₂
    intro s hs
    subst hs
    exact ⟨rfl, fd, hf₂.peer, hf₂.fd_eq, rfl, hf₂.calm⟩

theorem sendOrShutdown_fair {x : Sent} (hfits : x.fits = true) :
    Triple (Fair (some fd) (some fd) b (n + 1)) (sendOrShutdown x : Sys V Bool)
      (fun r s => r = true ∧ Fair (some fd) (some fd) b n s) (fun _ _ => False) := by
  refine Triple.get_bind fun s₀ h => ?_
  rw [h.fd_eq]
  refine Triple.bind_at ((mqttSend_fair hfits).starting h) fun r s₁ h₁ => ?_
  obtain ⟨rfl, hf⟩ := h₁
  exact Triple.pure fun s hs => ⟨rfl, hs ▸ hf⟩

/-- A telemetry message is far below the size limit: the topic is shorter than 128 bytes and
    the text than 384. -/
theorem publish_fits [CDouble V] (cfg : GatewayConfig V) (p : Telemetry V) :
    (Sent.publish cfg.mqtt_topic.bytes (telemetryToJson p 384)).fits = true := by
  have htopic := cfg.mqtt_topic.fits
  have htext : (telemetryToJson p 384).length ≤ 383 := length_snprintf_le 384 _
  have hlen := length_mqttEncodeRemainingLength_le
    (2 + cfg.mqtt_topic.bytes.length + (telemetryToJson p 384).length)
  simp only [Sent.fits, decide_eq_true_eq]
  omega

theorem replayPublish_fair [CDouble V] (p : Telemetry V) :
    Triple (Fair (some fd) (some fd) b (n + 1)) (replayPublish p : Sys V Bool)
      (fun r s => r = true ∧ Fair (some fd) (some fd) b n s) (fun _ _ => False) :=
  Triple.get_bind fun s₀ h => (sendOrShutdown_fair (publish_fits s₀.cfg p)).starting h

end

end Proof
end EdgeFlow
