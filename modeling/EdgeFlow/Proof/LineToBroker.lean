import EdgeFlow.Proof.GatewaySteps
import EdgeFlow.Proof.JsonTexts
import EdgeFlow.Proof.MachineNumbers
import EdgeFlow.Proof.ModbusReads
import EdgeFlow.Proof.MqttFrames
import EdgeFlow.Proof.StoredRows

/-!
# From the register to the broker

A register crosses four formats on its way: it is a word in a Modbus reply, a `double`, the
digits of a `%.4f` in a JSON text, and the payload of a PUBLISH. Each has its own results; here
they are put end to end. What a subscriber reads is a tenth of the register, exactly, whether the
message was published at once or replayed from the store.
-/

set_option autoImplicit false

namespace EdgeFlow

open Lib

variable {V : Type}

/-- What a subscriber makes of the bytes of a PUBLISH: the packet is read, whatever comes after it,
    its payload is one JSON object, and that says the reading. -/
def SubscriberReads (bytes topic device_id point_id unit quality : Bytes) (value : ℚ)
    (ts_ms : UInt64) : Prop :=
  ∃ payload members,
    (∀ rest, Mqtt.parsePacket (bytes ++ rest) = .ok (.publish false 0 false topic payload) rest) ∧
      Json.parse payload = some (.object members) ∧
      ((Json.object members).member (ascii "device_id")).bind Json.string? = some device_id ∧
      ((Json.object members).member (ascii "point_id")).bind Json.string? = some point_id ∧
      ((Json.object members).member (ascii "value")).bind Json.number? = some value ∧
      ((Json.object members).member (ascii "unit")).bind Json.string? = some unit ∧
      ((Json.object members).member (ascii "ts_ms")).bind Json.number? = some (ts_ms.toNat : ℚ) ∧
      ((Json.object members).member (ascii "quality")).bind Json.string? = some quality

/-- The reading of the point reaches the subscriber: in the message the worker publishes, and in the
    one a replay makes of the point's row, which knows no bad quality. -/
def Reaches [CDouble V] (cfg : GatewayConfig V) (p : Telemetry V) (device_id point_id unit : Bytes)
    (quality : TelemetryQuality) (value : ℚ) (ts_ms : UInt64) : Prop :=
  SubscriberReads (Proof.uploadMessage cfg (applyQualityRules cfg p)).bytes cfg.mqtt_topic.bytes
      device_id point_id unit (telemetryQualityToString quality) value ts_ms ∧
    ∀ id : Nat, SubscriberReads
      (Proof.uploadMessage cfg
        (fetchRow (id, telemetryColumns (applyQualityRules cfg p))).point).bytes
      cfg.mqtt_topic.bytes device_id point_id unit (telemetryQualityToString .good) value ts_ms

namespace Proof

open Json

/-! ## The digits -/

theorem digitsValue_pad (n : Nat) (ds : Bytes) :
    digitsValue (List.replicate n 48 ++ ds) = digitsValue ds := by
  unfold digitsValue
  rw [List.foldl_append]
  have hzero : (List.replicate n (48 : UInt8)).foldl
      (fun n b => 10 * n + (b.toNat - 0x30)) 0 = 0 := by
    induction n with
    | zero => rfl
    | succ n ih => exact ih
  rw [hzero]

/-- **What `%.4f` prints is read back as the ten-thousandths it rounded to.** -/
theorem numberText_fmtF4Rat (q : ℚ) :
    NumberText (fmtF4Rat q) ((if q < 0 then -1 else 1) * (tenThousandths q / 10000)) := by
  have hr := Nat.mod_lt (tenThousandths q) (by norm_num : 0 < 10000)
  obtain ⟨hlen, hdigits⟩ := fraction_digits hr
  have hne : List.replicate (4 - (dec (tenThousandths q % 10000)).length) (48 : UInt8) ++
      dec (tenThousandths q % 10000) ≠ [] := by
    intro h0
    rw [h0] at hlen
    cases hlen
  have htext : fmtF4Rat q = numeral (decide (q < 0)) (tenThousandths q / 10000)
      (List.replicate (4 - (dec (tenThousandths q % 10000)).length) (48 : UInt8) ++
        dec (tenThousandths q % 10000)) := by
    have hminus : ascii "-" = [0x2D] := rfl
    have hpoint : ascii "." = [0x2E] := rfl
    rw [fmtF4Rat, numeral, if_neg hne, hminus, hpoint]
    simp
  have hvalue : numeralValue (decide (q < 0)) (tenThousandths q / 10000)
      (List.replicate (4 - (dec (tenThousandths q % 10000)).length) (48 : UInt8) ++
        dec (tenThousandths q % 10000)) =
      (if q < 0 then -1 else 1) * (tenThousandths q / 10000) := by
    have hsplit : (tenThousandths q : ℚ) =
        10000 * (tenThousandths q / 10000 : ℕ) + (tenThousandths q % 10000 : ℕ) := by
      exact_mod_cast (Nat.div_add_mod (tenThousandths q) 10000).symm
    rw [numeralValue, digitsValue_pad, (dec_spec _).1, hlen, hsplit]
    simp only [decide_eq_true_eq]
    ring
  rw [htext, ← hvalue]
  exact numberText_numeral _ _ fun b hb => decide_eq_true (hdigits b hb)

/-- A tenth of a register is printed exactly, and briefly. -/
theorem numberText_tenth (reg : UInt16) :
    NumberText (fmtF4Rat (reg.toNat / 10)) (reg.toNat / 10) ∧
      (fmtF4Rat (reg.toNat / 10)).length ≤ 142 := by
  have hnonneg : (0 : ℚ) ≤ reg.toNat / 10 := div_nonneg (Nat.cast_nonneg _) (by norm_num)
  have hthousands : tenThousandths (reg.toNat / 10 : ℚ) = reg.toNat * 1000 := by
    apply Binary64.tenThousandths_eq_of_near
    rw [abs_of_nonneg hnonneg]
    push_cast
    rw [show (reg.toNat : ℚ) / 10 * 10000 - reg.toNat * 1000 = 0 by ring, abs_zero]
    norm_num
  constructor
  · have h := numberText_fmtF4Rat (reg.toNat / 10)
    rw [if_neg hnonneg.not_gt, hthousands] at h
    convert h using 1
    push_cast
    ring
  · have hreg := reg.toNat_lt
    have hint : (dec (reg.toNat * 1000 / 10000)).length ≤ 4 :=
      length_dec_le (by norm_num) (by omega)
    have hfrac := (fraction_digits (Nat.mod_lt (reg.toNat * 1000) (by norm_num : 0 < 10000))).1
    have hpoint : (ascii ".").length = 1 := rfl
    rw [fmtF4Rat, if_neg hnonneg.not_gt, hthousands, List.length_append, List.length_append,
      List.length_append, hfrac, hpoint, List.length_nil]
    omega

/-! ## The message -/

/-- **What is published of a clean point is read as the point**, with the number its digits say. -/
theorem subscriberReads_uploadMessage [CDouble V] (cfg : GatewayConfig V) {p : Telemetry V}
    {value : ℚ} (hvalue : NumberText (CDouble.fmtF4 p.value) value)
    (hshort : (CDouble.fmtF4 p.value).length ≤ 142) (hdevice : CleanText p.device_id.bytes)
    (hpoint : CleanText p.point_id.bytes) (hunit : CleanText p.unit.bytes) :
    SubscriberReads (uploadMessage cfg p).bytes cfg.mqtt_topic.bytes p.device_id.bytes
      p.point_id.bytes p.unit.bytes (telemetryQualityToString p.quality) value p.ts_ms := by
  have htext : telemetryToJson p 384 = telemetryJsonText p := by
    refine snprintf_of_fits ?_
    have hlen := length_telemetryJsonText p
    have hprinted := printedLength_le p
    unfold telemetryJsonText at hlen
    omega
  have hpieces : PointPieces p (some value) _ := messagePieces_point p hvalue
  have hclean : ∀ m ∈ (ascii "device_id", Piece.quoted p.device_id.bytes) ::
      messagePieces p (some value), m.2.Clean ∧ isUtf8 m.2.body = true := by
    intro m hm
    rcases hpieces.others m hm with hc | rfl | rfl | rfl | rfl
    · exact hc
    · exact hdevice
    · exact hpoint
    · exact ⟨rfl, isUtf8_of_ascii hvalue.low⟩
    · exact hunit
  have hparse := parse_renderObject
    (fun m hm => ⟨(hpieces.known m hm).1, (hpieces.known m hm).2, (hclean m hm).1⟩)
    (fun m hm => (hclean m hm).2)
  rw [← telemetryJsonText_eq, ← htext] at hparse
  refine ⟨_, _, (isFrame_of_fits (publish_fits cfg p)).whole, hparse, ?_, ?_, ?_, ?_, ?_, ?_⟩
  · rw [member_map hpieces.nodup hpieces.device]
    rfl
  · rw [member_map hpieces.nodup hpieces.point]
    rfl
  · rw [member_map hpieces.nodup hpieces.number]
    rfl
  · rw [member_map hpieces.nodup hpieces.unit]
    rfl
  · rw [member_map hpieces.nodup hpieces.ts]
    rfl
  · rw [member_map hpieces.nodup hpieces.quality]
    rfl

/-! ## The reading -/

open Binary64

section
variable (cfg : GatewayConfig Binary64) {p : Telemetry Binary64} {reg : UInt16}

/-- What is published of a register. -/
theorem subscriberReads_register (hvalue : p.value = scaled reg.toNat (1 / 10))
    (hdevice : CleanText p.device_id.bytes) (hpoint : CleanText p.point_id.bytes)
    (hunit : CleanText p.unit.bytes) :
    SubscriberReads (uploadMessage cfg p).bytes cfg.mqtt_topic.bytes p.device_id.bytes
      p.point_id.bytes p.unit.bytes (telemetryQualityToString p.quality) (reg.toNat / 10)
      p.ts_ms := by
  have htenth : (scaled reg.toNat (1 / 10) : ℚ) = reg.toNat / 10 := by
    change (reg.toNat : ℚ) * (1 / 10) = reg.toNat / 10
    ring
  have hdigits : CDouble.fmtF4 p.value = fmtF4Rat (reg.toNat / 10) := by
    rw [hvalue, (tenth_reading reg).1.fmtF4 (by norm_num), htenth]
  obtain ⟨hnumber, hshort⟩ := numberText_tenth reg
  rw [← hdigits] at hnumber hshort
  exact subscriberReads_uploadMessage cfg hnumber hshort hdevice hpoint hunit

/-- And of its row, when it is replayed. -/
theorem subscriberReads_row (id : Nat) (hvalue : p.value = scaled reg.toNat (1 / 10))
    (hdevice : CleanText p.device_id.bytes) (hpoint : CleanText p.point_id.bytes)
    (hunit : CleanText p.unit.bytes) :
    SubscriberReads (uploadMessage cfg (fetchRow (id, telemetryColumns p)).point).bytes
      cfg.mqtt_topic.bytes p.device_id.bytes p.point_id.bytes p.unit.bytes
      (telemetryQualityToString .good) (reg.toNat / 10) p.ts_ms := by
  rw [fetchRow_telemetryColumns]
  exact subscriberReads_register cfg hvalue hdevice hpoint hunit

/-- The point as the worker has it, after the quality rule. -/
theorem reaches_of_register (hvalue : p.value = scaled reg.toNat (1 / 10))
    (hdevice : CleanText p.device_id.bytes) (hpoint : CleanText p.point_id.bytes)
    (hunit : CleanText p.unit.bytes) :
    Reaches cfg p p.device_id.bytes p.point_id.bytes p.unit.bytes
      (applyQualityRules cfg p).quality (reg.toNat / 10) p.ts_ms := by
  have hrule : ∃ quality, applyQualityRules cfg p = { p with quality := quality } := by
    unfold applyQualityRules
    split_ifs
    · exact ⟨.bad, rfl⟩
    · exact ⟨p.quality, rfl⟩
  obtain ⟨quality, hrule⟩ := hrule
  unfold Reaches
  rw [hrule]
  constructor
  · exact subscriberReads_register cfg (p := { p with quality := quality }) hvalue hdevice hpoint
      hunit
  · intro id
    exact subscriberReads_row cfg (p := { p with quality := quality }) id hvalue hdevice hpoint
      hunit

end

/-- The quality rule, on registers: a temperature is bad above ten times the limit. -/
theorem applyQualityRules_register {cfg : GatewayConfig Binary64} {T : ℕ} (hT : T < 2 ^ 16)
    (htemp : cfg.temp_high = ofRat T) {p : Telemetry Binary64} {reg : UInt16}
    (hvalue : p.value = scaled reg.toNat (1 / 10)) (hgood : p.quality = .good) :
    (applyQualityRules cfg p).quality =
      if p.point_id.bytes = maxCellTempC ∧ 10 * T < reg.toNat then .bad else .good := by
  have hlimit : Whole (T : ℚ) := ⟨T, hT, rfl⟩
  have hlt : CDouble.lt cfg.temp_high p.value = decide (10 * T < reg.toNat) := by
    rw [htemp, hvalue, (tenth_reading reg).lt_limit hlimit, CDouble.lt_rat, decide_eq_decide]
    change (T : ℚ) < reg.toNat * (1 / 10) ↔ _
    rw [mul_one_div, lt_div_iff₀ (by norm_num)]
    constructor
    · intro h
      have : T * 10 < reg.toNat := by exact_mod_cast h
      omega
    · intro h
      have : T * 10 < reg.toNat := by omega
      exact_mod_cast this
  unfold applyQualityRules
  simp only [hlt, Bool.and_eq_true, Telemetry.isPoint_iff, decide_eq_true_eq]
  split_ifs
  · rfl
  · exact hgood

/-- A register under good names. -/
theorem reaches_telemetryInit {cfg : GatewayConfig Binary64} {T : ℕ} (hT : T < 2 ^ 16)
    (htemp : cfg.temp_high = ofRat T) (device_id point_id unit : Bytes)
    (hdevice : (CStr.copy 64 device_id).bytes = device_id ∧ CleanText device_id)
    (hpoint : (CStr.copy 64 point_id).bytes = point_id ∧ CleanText point_id)
    (hunit : (CStr.copy 16 unit).bytes = unit ∧ CleanText unit) (now : UInt64) (reg : UInt16)
    (source_id : UInt16) :
    Reaches cfg
      (telemetryInit now device_id point_id (scaled reg.toNat (1 / 10)) unit source_id)
      device_id point_id unit
      (if point_id = maxCellTempC ∧ 10 * T < reg.toNat then .bad else .good) (reg.toNat / 10)
      now := by
  obtain ⟨p, hp⟩ : ∃ p, p = telemetryInit now device_id point_id
    (scaled reg.toNat (1 / 10) : Binary64) unit source_id := ⟨_, rfl⟩
  have hdev : p.device_id.bytes = device_id := by rw [hp]; exact hdevice.1
  have hpt : p.point_id.bytes = point_id := by rw [hp]; exact hpoint.1
  have hun : p.unit.bytes = unit := by rw [hp]; exact hunit.1
  have hvalue : p.value = scaled reg.toNat (1 / 10) := by rw [hp]; rfl
  have hts : p.ts_ms = now := by rw [hp]; rfl
  have hgood : p.quality = .good := by rw [hp]; rfl
  have h := reaches_of_register cfg hvalue (hdev ▸ hdevice.2) (hpt ▸ hpoint.2) (hun ▸ hunit.2)
  rw [applyQualityRules_register hT htemp hvalue hgood, hdev, hun, hts] at h
  simp only [hpt] at h
  rw [← hp]
  exact h

end Proof

open Proof Libmodbus

/-- **A register reaches the broker as its tenth.** A genuine reply on the line, cut up in any way,
    becomes three points; each of them, published at once or replayed from its row, is read by a
    subscriber as exactly a tenth of its register, under its names and with the time of the poll.
    Published at once, the temperature says bad when its register is above ten times the limit, a
    whole number below `2^16`; the replayed copy always says good. -/
theorem line_to_broker {cfg : GatewayConfig Binary64} {T : ℕ} (hT : T < 2 ^ 16)
    (htemp : cfg.temp_high = Binary64.ofRat T) {made connects : Bool} {now : UInt64}
    {t_id : UInt16} {line : Line} {out : List (Telemetry Binary64)} {s : ModbusState}
    {r0 r1 r2 : UInt16} {rsp rest : Bytes} (hstream : line.stream = rsp ++ rest)
    (hgenuine : Genuine cfg t_id [r0, r1, r2] rsp) (hsent : ∀ req, line.sent req = req.length)
    (hd : Delivers line.answers line.stream) (hlen : 3 ≤ out.length)
    (hensure : (ensureContext cfg ⟨made, connects, some (r0, r1, r2), now⟩ s).1 = 0) :
    ∃ soc temp power s',
      wirePoll (fun reg => scaled reg.toNat (1 / 10)) cfg made connects now t_id line out s =
          some (3, soc :: temp :: power :: out.drop 3, s') ∧
        Reaches cfg soc (ascii "bms_001") (ascii "soc_percent") (ascii "%") .good
          (r0.toNat / 10) now ∧
        Reaches cfg temp (ascii "bms_001") (ascii "max_cell_temp_c") (ascii "C")
          (if 10 * T < r1.toNat then .bad else .good) (r1.toNat / 10) now ∧
        Reaches cfg power (ascii "meter_001") (ascii "grid_power_kw") (ascii "kW") .good
          (r2.toNat / 10) now := by
  obtain ⟨s', hpoll⟩ : ∃ s',
      wirePoll (fun reg => scaled reg.toNat (1 / 10)) cfg made connects now t_id line out s =
        some (3, (mapRegistersToTelemetry (fun reg => scaled reg.toNat (1 / 10)) now (r0, r1, r2)
          out).2, s') := wirePoll_of_genuine hstream hgenuine hsent hd hlen hensure
  rw [mapRegistersToTelemetry, if_neg (by omega)] at hpoll
  have hbms : (CStr.copy 64 (ascii "bms_001")).bytes = ascii "bms_001" ∧
      CleanText (ascii "bms_001") := ⟨by decide, by decide, by decide⟩
  refine ⟨_, _, _, s', hpoll, ?_, ?_, ?_⟩
  · have h := reaches_telemetryInit hT htemp (ascii "bms_001") socPercent (ascii "%") hbms
      ⟨by decide, by decide, by decide⟩ ⟨by decide, by decide, by decide⟩ now r0 2
    rwa [if_neg (fun h => socPercent_ne_maxCellTempC h.1)] at h
  · have h := reaches_telemetryInit hT htemp (ascii "bms_001") maxCellTempC (ascii "C") hbms
      ⟨by decide, by decide, by decide⟩ ⟨by decide, by decide, by decide⟩ now r1 2
    simp only [true_and] at h
    exact h
  · have h := reaches_telemetryInit hT htemp (ascii "meter_001") gridPowerKw (ascii "kW")
      ⟨by decide, by decide, by decide⟩ ⟨by decide, by decide, by decide⟩
      ⟨by decide, by decide, by decide⟩ now r2 2
    rwa [if_neg (fun h => maxCellTempC_ne_gridPowerKw h.1.symm)] at h

/-- The reply of slave 1 with 76.2 %, 55.1 C and 90.0 kW, a byte at a time: too hot for the
    default limit of 55 C. -/
def hotLine : Line where
  sent req := req.length
  answers := List.replicate 16 (.ready 1)
  stream := modbusFrame (rtuReplyMsg 1 [762, 551, 900]) ++ [9, 9, 9, 9]

theorem line_to_broker_hot :
    ∃ soc temp power s',
      wirePoll (fun reg => scaled reg.toNat (1 / 10)) (gatewayConfigDefaults Binary64) true true 5 0
          hotLine ingressPoints modbusStart =
        some (3, soc :: temp :: power :: ingressPoints.drop 3, s') ∧
      Reaches (gatewayConfigDefaults Binary64) soc (ascii "bms_001") (ascii "soc_percent")
        (ascii "%") .good ((762 : UInt16).toNat / 10) 5 ∧
      Reaches (gatewayConfigDefaults Binary64) temp (ascii "bms_001") (ascii "max_cell_temp_c")
        (ascii "C") (if 10 * 55 < (551 : UInt16).toNat then .bad else .good)
        ((551 : UInt16).toNat / 10) 5 ∧
      Reaches (gatewayConfigDefaults Binary64) power (ascii "meter_001") (ascii "grid_power_kw")
        (ascii "kW") .good ((900 : UInt16).toNat / 10) 5 := by
  have hgenuine : Genuine (gatewayConfigDefaults Binary64) 0 [762, 551, 900]
      (modbusFrame (rtuReplyMsg 1 [762, 551, 900])) := by
    rw [Genuine, if_neg (by decide)]
    exact ⟨by decide, rfl⟩
  have hd : Delivers hotLine.answers hotLine.stream := by
    refine ⟨?_, by decide⟩
    intro a ha
    rw [List.eq_of_mem_replicate ha]
    exact RecvAnswer.noConfusion
  have htemp : (gatewayConfigDefaults Binary64).temp_high = Binary64.ofRat ((55 : ℕ) : ℚ) := by
    rw [Nat.cast_ofNat]
    rfl
  exact line_to_broker (by norm_num) htemp rfl hgenuine (fun _ => rfl) hd
    (not_lt.mp length_ingressPoints) (by decide)

end EdgeFlow
