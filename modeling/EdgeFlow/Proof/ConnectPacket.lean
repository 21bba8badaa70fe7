import EdgeFlow.Proof.SessionRules

/-!
# The CONNECT packet and the configuration

A CONNECT carries two settings: the device id, behind a fixed text, and the keep-alive. The id
always gets through — a device id is at most 31 bytes, so neither the 64-byte client id nor the
160-byte packet cuts it. The keep-alive is a 32-bit setting in a 16-bit field, and gets through
exactly when it fits.

`Connects` is the invariant that makes this a statement about sessions: every CONNECT a session
has sent, on any connection, is the one its configuration determines.
-/

set_option autoImplicit false

namespace EdgeFlow

open Lib

variable {V : Type}

/-- A broker reads the packet, whole and with nothing left over, as the CONNECT the
    configuration describes: MQTT 3.1.1, a clean session (`0x02` is that flag and no other), the
    device's client id and its keep-alive. -/
structure SaysConfig (cfg : GatewayConfig V) (x : Sent) : Prop where
  fits : x.fits = true
  room : x.bytes.length ≤ 160
  parse : Mqtt.parsePacket x.bytes = .ok (.connect (ascii "MQTT") 0x04 0x02
    cfg.mqtt_keepalive_sec.toNat (ascii "edgeflow-" ++ cfg.device_id.bytes)) []

/-- The packet a session asks for, and every CONNECT that any run of it sends. -/
def ConnectsSayConfig [CDouble V] (cfg : GatewayConfig V) : Prop :=
  SaysConfig cfg (connectOf cfg) ∧
    ∀ (handled : List Signal) (calls : List (SessionCall V × List Event)),
      ∀ p ∈ (sessionRun (mqttSessionInit cfg handled) calls).1.sends,
        p.2.isConnect = true → SaysConfig cfg p.2

namespace Proof

/-! ## The packet -/

theorem clientId_eq (cfg : GatewayConfig V) :
    clientId cfg = ascii "edgeflow-" ++ cfg.device_id.bytes := by
  have hid := cfg.device_id.fits
  have htext : (ascii "edgeflow-").length = 9 := by decide
  unfold clientId snprintf
  apply List.take_of_length_le
  rw [List.length_append, htext]
  omega

theorem connectOf_fits (cfg : GatewayConfig V) : (connectOf cfg).fits = true := by
  have hid := cfg.device_id.fits
  have htext : (ascii "edgeflow-").length = 9 := by decide
  have hlen := length_mqttEncodeRemainingLength_le (10 + 2 + (clientId cfg).length)
  have hcid : (clientId cfg).length ≤ 40 := by
    rw [clientId_eq, List.length_append, htext]
    omega
  simp only [connectOf, Sent.fits, decide_eq_true_eq]
  omega

/-- What passes the size check of `mqtt_send_connect` is no longer than its buffer. -/
theorem length_connectBytes_le {client_id : Bytes} {keepalive_sec : UInt16}
    (h : (Sent.connect client_id keepalive_sec).fits = true) :
    (Sent.connect client_id keepalive_sec).bytes.length ≤ 160 := by
  have hname : (ascii "MQTT").length = 4 := by decide
  simp only [Sent.fits, decide_eq_true_eq] at h
  simp only [Sent.bytes, connectBytes, List.length_cons, List.length_append, List.length_nil,
    length_word16, hname]
  omega

/-- **A broker reads the CONNECT as the client id and the keep-alive modulo `65536`.** -/
theorem parse_connectOf (cfg : GatewayConfig V) :
    Mqtt.parsePacket (connectOf cfg).bytes = .ok (.connect (ascii "MQTT") 0x04 0x02
      (cfg.mqtt_keepalive_sec.toNat % 65536) (ascii "edgeflow-" ++ cfg.device_id.bytes)) [] := by
  have hframe := (isFrame_of_fits (connectOf_fits cfg)).whole []
  rw [List.append_nil] at hframe
  rw [hframe, ← clientId_eq, ← UInt32.toNat_toUInt16]
  rfl

theorem saysConfig_connectOf_iff (cfg : GatewayConfig V) :
    SaysConfig cfg (connectOf cfg) ↔ cfg.mqtt_keepalive_sec.toNat < 65536 := by
  constructor
  · intro h
    have hparse := h.parse
    rw [parse_connectOf cfg] at hparse
    injection hparse with hpacket
    injection hpacket with _ _ _ hkeep
    rw [← hkeep]
    exact Nat.mod_lt _ (by decide)
  · intro h
    refine ⟨connectOf_fits cfg, length_connectBytes_le (connectOf_fits cfg), ?_⟩
    rw [parse_connectOf cfg, Nat.mod_eq_of_lt h]

/-! ## Every CONNECT of a session -/

/-- The session's configuration is `cfg`, and so say its CONNECTs. -/
def Connects (cfg : GatewayConfig V) (s : Net V) : Prop :=
  s.cfg = cfg ∧ ∀ p ∈ s.sends, p.2.isConnect = true → p.2 = connectOf cfg

section
variable {cfg : GatewayConfig V}

theorem connects_congr {s s' : Net V} (h : Connects cfg s) (hcfg : s'.cfg = s.cfg)
    (hsends : s'.sends = s.sends) : Connects cfg s' :=
  ⟨hcfg.trans h.1, fun p hp => h.2 p (hsends ▸ hp)⟩

theorem brokerMove_connects {s : Net V} (fd : Nat) (resets : Bool) (h : Connects cfg s) :
    Connects cfg (brokerMove fd resets s) := by
  unfold brokerMove
  split
  · exact h
  · exact h

theorem sysWrite_connects (fd : Nat) (buf : Bytes) :
    Keeps (Connects cfg) (fun _ => Connects cfg) (sysWrite fd buf : Sys V WriteResult) := by
  have hevent : Keeps (Connects cfg) (fun _ => Connects cfg) (nextEvent : Sys V Event) :=
    nextEvent_keeps (fun _ h => h) fun _ _ h => connects_congr h rfl rfl
  refine hevent.bind fun ev =>
    (Keeps.modify fun s h => brokerMove_connects fd ev.resets h).bind fun _ => ?_
  refine Keeps.get_bind fun s _ =>
    Keeps.bind (Keeps.modify fun s h => connects_congr h rfl rfl) fun _ => ?_
  split_ifs
  · exact Keeps.pure _
  · exact Triple.stop fun _ h => h
  · cases ev.answer with
    | ok n data =>
      exact Keeps.bind (Keeps.modify fun s h => connects_congr h rfl rfl) fun _ => Keeps.pure _
    | eintr => exact Keeps.pure _
    | fail => exact Keeps.pure _

/-- The configuration never changes, and it is what every CONNECT is built from. -/
theorem connects_rule (cfg : GatewayConfig V) :
    SessionRule (Connects cfg) (fun _ => Connects cfg)
      fun x => x.isConnect = true → x = connectOf cfg where
  blocked _ h := h
  events _ _ h := connects_congr h rfl rfl
  socket _ h := connects_congr h rfl rfl
  close _ _ h := connects_congr h rfl rfl
  read _ fd resets h := connects_congr (brokerMove_connects fd resets h) rfl rfl
  write := sysWrite_connects
  fields _ _ _ h := connects_congr h rfl rfl
  sent s fd x hx h := by
    refine ⟨h.1, fun p hp => ?_⟩
    rcases List.mem_append.mp hp with hp | hp
    · exact h.2 p hp
    · rw [List.mem_singleton.mp hp]
      exact hx
  message x hx hconnect := by
    rw [hx] at hconnect
    cases hconnect
  connect s h _ := by rw [h.1]

end

section
variable [CDouble V]

/-- Over every run, whichever way it ends. -/
theorem sessionRun_connects {cfg : GatewayConfig V} {s : Net V} (h : Connects cfg s)
    (calls : List (SessionCall V × List Event)) : Connects cfg (sessionRun s calls).1 := by
  have hrun := (connects_rule cfg).run calls h
  rcases hx : sessionRun s calls with ⟨s', _ | e⟩ <;> rw [hx] at hrun
  · exact hrun
  · exact hrun

/-- **CONNECT packets say what the configuration says, exactly if the keep-alive setting is
    below `65536`.** -/
theorem connects_say_config_iff (cfg : GatewayConfig V) :
    ConnectsSayConfig cfg ↔ cfg.mqtt_keepalive_sec.toNat < 65536 := by
  constructor
  · intro h
    exact (saysConfig_connectOf_iff cfg).mp h.1
  · intro h
    have hcfg := (saysConfig_connectOf_iff cfg).mpr h
    refine ⟨hcfg, fun handled calls p hp hconnect => ?_⟩
    have hinit : Connects cfg (mqttSessionInit cfg handled) := ⟨rfl, fun p hp => by cases hp⟩
    rw [(sessionRun_connects hinit calls).2 p hp hconnect]
    exact hcfg

end

/-- A keep-alive setting of `65536` reaches the broker as `0`, which turns keep-alive off. -/
theorem connect_keepalive_wraps :
    ∃ cfg : GatewayConfig ℚ, cfg.mqtt_keepalive_sec = 65536 ∧
      Mqtt.parsePacket (connectOf cfg).bytes =
        .ok (.connect (ascii "MQTT") 0x04 0x02 0 (ascii "edgeflow-gw-dev")) [] ∧
      ¬ConnectsSayConfig cfg := by
  let cfg : GatewayConfig ℚ := { gatewayConfigDefaults ℚ with mqtt_keepalive_sec := 65536 }
  have hparse : Mqtt.parsePacket (connectOf cfg).bytes =
      .ok (.connect (ascii "MQTT") 0x04 0x02 0 (ascii "edgeflow-gw-dev")) [] := by
    decide +kernel
  refine ⟨cfg, rfl, hparse, fun hsay => ?_⟩
  have hkeep := hsay.1.parse
  rw [hparse] at hkeep
  injection hkeep with hpacket
  injection hpacket with _ _ _ hzero
  exact absurd hzero (by decide)

end Proof
end EdgeFlow
