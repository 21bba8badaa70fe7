import EdgeFlow.Platform.Config

/-!
# The numbers of the configuration

Thirteen fields of the configuration are unsigned, of three widths, and are filled from the
document's numbers by a C conversion. The conversion is the integer part where that fits the
field; where it does not, nothing is promised of the value, and nothing is checked either. So a
document that was accepted gives the settings it says exactly when its numbers are in range.
-/

set_option autoImplicit false

namespace EdgeFlow

open Lib

variable {V : Type}

/-- The unsigned fields of `gateway_config_t`. -/
inductive UnsignedField where
  | poll_interval_ms
  | queue_size
  | broker_port
  | mqtt_replay_batch
  | mqtt_keepalive_sec
  | watchdog_interval_ms
  | heartbeat_interval_ms
  | modbus_tcp_port
  | modbus_slave_id
  | modbus_baud_rate
  | modbus_data_bits
  | modbus_stop_bits
  | modbus_timeout_ms
  deriving DecidableEq

namespace UnsignedField

def key : UnsignedField → String
  | .poll_interval_ms => "poll_interval_ms"
  | .queue_size => "queue_size"
  | .broker_port => "broker_port"
  | .mqtt_replay_batch => "mqtt_replay_batch"
  | .mqtt_keepalive_sec => "mqtt_keepalive_sec"
  | .watchdog_interval_ms => "watchdog_interval_ms"
  | .heartbeat_interval_ms => "heartbeat_interval_ms"
  | .modbus_tcp_port => "modbus_tcp_port"
  | .modbus_slave_id => "modbus_slave_id"
  | .modbus_baud_rate => "modbus_baud_rate"
  | .modbus_data_bits => "modbus_data_bits"
  | .modbus_stop_bits => "modbus_stop_bits"
  | .modbus_timeout_ms => "modbus_timeout_ms"

def bits : UnsignedField → Nat
  | .broker_port | .modbus_tcp_port => 16
  | .modbus_slave_id | .modbus_data_bits | .modbus_stop_bits => 8
  | _ => 32

def get (cfg : GatewayConfig V) : UnsignedField → Nat
  | .poll_interval_ms => cfg.poll_interval_ms.toNat
  | .queue_size => cfg.queue_size.toNat
  | .broker_port => cfg.broker_port.toNat
  | .mqtt_replay_batch => cfg.mqtt_replay_batch.toNat
  | .mqtt_keepalive_sec => cfg.mqtt_keepalive_sec.toNat
  | .watchdog_interval_ms => cfg.watchdog_interval_ms.toNat
  | .heartbeat_interval_ms => cfg.heartbeat_interval_ms.toNat
  | .modbus_tcp_port => cfg.modbus_tcp_port.toNat
  | .modbus_slave_id => cfg.modbus_slave_id.toNat
  | .modbus_baud_rate => cfg.modbus_baud_rate.toNat
  | .modbus_data_bits => cfg.modbus_data_bits.toNat
  | .modbus_stop_bits => cfg.modbus_stop_bits.toNat
  | .modbus_timeout_ms => cfg.modbus_timeout_ms.toNat

/-- The number the document gives for the field, `none` if the key is absent or no number. -/
def given (root : Json V) (f : UnsignedField) : Option V :=
  (root.member (ascii f.key)).bind Json.number?

end UnsignedField

/-- The JSON value in the configuration file. -/
def configDocument (cJsonParse : Bytes → Option (Json V)) (file : Option Bytes) :
    Option (Json V) :=
  file.bind fun text => cJsonParse (upToNul text)

section
variable [CDouble V] [CDoubleInt V]

/-- A number that is not negative and whose integer part has at most `bits` bits. -/
def InRange (bits : Nat) (v : V) : Prop :=
  CDouble.le (CDouble.lit 0) v = true ∧
    ∃ n : Nat, CDoubleInt.trunc v = some (n : Int) ∧ n < 2 ^ bits

/-- The field is what the document says: the default, or the integer part of a number that is in
    the field's range. -/
def UnsignedField.FromDocument (root : Json V) (cfg : GatewayConfig V) (f : UnsignedField) : Prop :=
  match f.given root with
  | none => f.get cfg = f.get (gatewayConfigDefaults V)
  | some v => CDoubleInt.trunc v = some (f.get cfg : Int) ∧ InRange f.bits v

/-- Whatever document is accepted, the unsigned fields are what it says. -/
def SettingsFromDocument (undef : Nat → V → Nat) (cJsonParse : Bytes → Option (Json V))
    (file : Option Bytes) : Prop :=
  ∀ cfg, gatewayConfigLoad undef cJsonParse file = (true, cfg) →
    ∃ root, configDocument cJsonParse file = some root ∧ ∀ f, UnsignedField.FromDocument root cfg f

/-- If the file holds an object, the numbers it gives for unsigned fields are in their range. -/
def NumbersInRange (cJsonParse : Bytes → Option (Json V)) (file : Option Bytes) : Prop :=
  ∀ members, configDocument cJsonParse file = some (.object members) →
    ∀ (f : UnsignedField) (v : V), f.given (.object members) = some v → InRange f.bits v

namespace Proof

/-! ## What a field is loaded as -/

omit [CDouble V] [CDoubleInt V] in
/-- A copied number, as `read` sees it. -/
theorem jsonCopy_number {α : Type} (root : Json V) (key : String) (g : V → α) (dst : α)
    (read : α → Nat) :
    read (jsonCopy root key (fun item => item.number?.map g) dst) =
      ((root.member (ascii key)).bind Json.number?).elim (read dst) fun v => read (g v) := by
  unfold jsonCopy
  cases root.member (ascii key) with
  | none => rfl
  | some item =>
    rw [Option.bind_some, Option.bind_some]
    cases item.number? with
    | none => rfl
    | some v => rfl

omit [CDouble V] in
theorem toNat_jsonCopyUint32 (undef : Nat → V → Nat) (root : Json V) (key : String) (dst : UInt32) :
    (jsonCopyUint32 root key undef dst).toNat =
      ((root.member (ascii key)).bind Json.number?).elim dst.toNat
        fun v => toUnsigned undef 32 v % 2 ^ 32 :=
  jsonCopy_number root key _ dst UInt32.toNat

omit [CDouble V] in
theorem toNat_jsonCopyUint16 (undef : Nat → V → Nat) (root : Json V) (key : String) (dst : UInt16) :
    (jsonCopyUint16 root key undef dst).toNat =
      ((root.member (ascii key)).bind Json.number?).elim dst.toNat
        fun v => toUnsigned undef 16 v % 2 ^ 16 :=
  jsonCopy_number root key _ dst UInt16.toNat

omit [CDouble V] in
theorem toNat_jsonCopyUint8 (undef : Nat → V → Nat) (root : Json V) (key : String) (dst : UInt8) :
    (jsonCopyUint8 root key undef dst).toNat =
      ((root.member (ascii key)).bind Json.number?).elim dst.toNat
        fun v => toUnsigned undef 8 v % 2 ^ 8 :=
  jsonCopy_number root key _ dst UInt8.toNat

/-- **Every unsigned field is its default or the converted number**, of its own key and width. -/
theorem get_configOfDocument (undef : Nat → V → Nat) (root : Json V) (f : UnsignedField) :
    f.get (configOfDocument undef root) =
      (f.given root).elim (f.get (gatewayConfigDefaults V))
        fun v => toUnsigned undef f.bits v % 2 ^ f.bits := by
  cases f with
  | poll_interval_ms => exact toNat_jsonCopyUint32 ..
  | queue_size => exact toNat_jsonCopyUint32 ..
  | broker_port => exact toNat_jsonCopyUint16 ..
  | mqtt_replay_batch => exact toNat_jsonCopyUint32 ..
  | mqtt_keepalive_sec => exact toNat_jsonCopyUint32 ..
  | watchdog_interval_ms => exact toNat_jsonCopyUint32 ..
  | heartbeat_interval_ms => exact toNat_jsonCopyUint32 ..
  | modbus_tcp_port => exact toNat_jsonCopyUint16 ..
  | modbus_slave_id => exact toNat_jsonCopyUint8 ..
  | modbus_baud_rate => exact toNat_jsonCopyUint32 ..
  | modbus_data_bits => exact toNat_jsonCopyUint8 ..
  | modbus_stop_bits => exact toNat_jsonCopyUint8 ..
  | modbus_timeout_ms => exact toNat_jsonCopyUint32 ..

/-- The conversion of a number in range is its integer part, and the field holds it. -/
theorem toUnsigned_of_inRange (undef : Nat → V → Nat) {bits : Nat} {v : V} (h : InRange bits v) :
    CDoubleInt.trunc v = some ((toUnsigned undef bits v % 2 ^ bits : Nat) : Int) := by
  obtain ⟨_, n, hn, hlt⟩ := h
  have hfits : (0 : Int) ≤ n ∧ (n : Int) < 2 ^ bits := ⟨Int.natCast_nonneg n, by exact_mod_cast hlt⟩
  have hconv : toUnsigned undef bits v = n := by
    rw [toUnsigned, hn]
    simp only [if_pos hfits, Int.toNat_natCast]
  rw [hn, hconv, Nat.mod_eq_of_lt hlt]

/-- What was accepted is the object in the file. -/
theorem gatewayConfigLoad_ok {undef : Nat → V → Nat} {cJsonParse : Bytes → Option (Json V)}
    {file : Option Bytes} {cfg : GatewayConfig V} :
    gatewayConfigLoad undef cJsonParse file = (true, cfg) ↔
      ∃ members, configDocument cJsonParse file = some (.object members) ∧
        cfg = configOfDocument undef (.object members) := by
  unfold gatewayConfigLoad configDocument
  split
  · rename_i members hdoc
    rw [hdoc]
    constructor
    · intro h
      exact ⟨members, rfl, (Prod.mk.inj h).2.symm⟩
    · rintro ⟨members', hm, rfl⟩
      obtain rfl := Json.object.inj (Option.some.inj hm)
      rfl
  · rename_i hno
    constructor
    · intro h
      cases (Prod.mk.inj h).1
    · rintro ⟨members, hm, _⟩
      exact absurd hm (hno members)

/-- Nothing but an object is accepted. -/
theorem document_of_accepted {undef : Nat → V → Nat} {cJsonParse : Bytes → Option (Json V)}
    {file : Option Bytes} (h : (gatewayConfigLoad undef cJsonParse file).1 = true) :
    ∃ members, configDocument cJsonParse file = some (.object members) := by
  obtain ⟨members, hdoc, _⟩ := gatewayConfigLoad_ok.mp (Prod.ext h rfl)
  exact ⟨members, hdoc⟩

/-- A field filled from a number that is not in range is not what the document says. -/
theorem inRange_of_fromDocument {root : Json V} {cfg : GatewayConfig V} {f : UnsignedField} {v : V}
    (h : f.FromDocument root cfg) (hv : f.given root = some v) : InRange f.bits v := by
  unfold UnsignedField.FromDocument at h
  rw [hv] at h
  exact h.2

theorem numbersInRange_of_settings {undef : Nat → V → Nat} {cJsonParse : Bytes → Option (Json V)}
    {file : Option Bytes} (h : SettingsFromDocument undef cJsonParse file) :
    NumbersInRange cJsonParse file := by
  intro members hdoc f v hv
  obtain ⟨root, hroot, hfields⟩ := h _ (gatewayConfigLoad_ok.mpr ⟨members, hdoc, rfl⟩)
  obtain rfl := Option.some.inj (hdoc.symm.trans hroot)
  exact inRange_of_fromDocument (hfields f) hv

/-- **Accepted settings are the document's exactly when its numbers are in range**, whatever
    reads the document and whatever an undefined conversion gives. -/
theorem accepted_settings_exact_iff (undef : Nat → V → Nat)
    (cJsonParse : Bytes → Option (Json V)) (file : Option Bytes) :
    SettingsFromDocument undef cJsonParse file ↔ NumbersInRange cJsonParse file := by
  constructor
  · exact numbersInRange_of_settings
  · intro h cfg hload
    obtain ⟨members, hdoc, rfl⟩ := gatewayConfigLoad_ok.mp hload
    refine ⟨_, hdoc, fun f => ?_⟩
    have hget := get_configOfDocument undef (.object members) f
    unfold UnsignedField.FromDocument
    cases hv : f.given (.object members) with
    | none =>
      rw [hv] at hget
      exact hget
    | some v =>
      rw [hv] at hget
      have hrange : InRange f.bits v := h members hdoc f v hv
      refine ⟨?_, hrange⟩
      rw [hget]
      exact toUnsigned_of_inRange undef hrange

end Proof
end

namespace Proof

/-- What a machine commonly does with an integer part that is too large: it keeps the low bits. -/
def lowBits (_ : Nat) (q : ℚ) : Nat := (q.num.tdiv q.den).toNat

/-- A configuration whose port has a bit too many. -/
def largePort : Option Bytes := some (ascii "\x7b\"broker_port\":65536\x7d")

/-- A port of 65536 is accepted, as port 0. -/
theorem large_port_is_accepted :
    (gatewayConfigLoad lowBits Json.parse largePort).1 = true ∧
      (gatewayConfigLoad lowBits Json.parse largePort).2.broker_port = 0 ∧
      ¬SettingsFromDocument lowBits Json.parse largePort := by
  have hok : (gatewayConfigLoad lowBits Json.parse largePort).1 = true := by decide +kernel
  have hport : (gatewayConfigLoad lowBits Json.parse largePort).2.broker_port = 0 := by
    decide +kernel
  have hgiven : (configDocument Json.parse largePort).bind
      (fun root => UnsignedField.broker_port.given root) = some 65536 := by decide +kernel
  have hpart : CDoubleInt.trunc (65536 : ℚ) = some 65536 := by decide +kernel
  obtain ⟨members, hdoc⟩ := document_of_accepted hok
  refine ⟨hok, hport, fun h => ?_⟩
  rw [hdoc, Option.bind_some] at hgiven
  obtain ⟨_, n, hn, hlt⟩ :=
    numbersInRange_of_settings h members hdoc .broker_port 65536 hgiven
  rw [hpart] at hn
  have hn' : (65536 : Int) = n := Option.some.inj hn
  have hlt' : n < 65536 := hlt
  omega

end Proof

end EdgeFlow
