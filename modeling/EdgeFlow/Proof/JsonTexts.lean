import EdgeFlow.Lib.JsonText
import EdgeFlow.Proof.MessageSizes

/-!
# What the JSON texts say

The three texts are pasted together with `%s`, `%.4f` and `%llu` (`renderObject`), so what they say
depends on what is pasted: the identifiers and the unit go in as they are. A text is read back as
what was meant exactly when they are clean and the value is a finite number.
-/

set_option autoImplicit false

namespace EdgeFlow

open Lib

variable {V : Type}

/-- A text that `%s` can paste between quotes: no quote, backslash or control byte, and UTF-8. -/
def CleanText (bs : Bytes) : Prop := Json.Plain bs ∧ Json.isUtf8 bs = true

/-- A point whose texts can be pasted, with a value that is a number. -/
def CleanPoint [CDoublePrint V] (p : Telemetry V) : Prop :=
  CDoublePrint.finite p.value = true ∧ CleanText p.device_id.bytes ∧
    CleanText p.point_id.bytes ∧ CleanText p.unit.bytes

/-- The text is one JSON object, and says the point. -/
def SaysTelemetry (text : Bytes) (p : Telemetry V) : Prop :=
  ∃ members, Json.parse text = some (.object members) ∧
    ((Json.object members).member (ascii "device_id")).bind Json.string? =
      some p.device_id.bytes ∧
    ((Json.object members).member (ascii "point_id")).bind Json.string? = some p.point_id.bytes ∧
    ((Json.object members).member (ascii "unit")).bind Json.string? = some p.unit.bytes ∧
    ((Json.object members).member (ascii "quality")).bind Json.string? =
      some (telemetryQualityToString p.quality) ∧
    ((Json.object members).member (ascii "ts_ms")).bind Json.number? = some (p.ts_ms.toNat : ℚ)

/-- The text is one JSON object, and says whose heartbeat it is and when. -/
def SaysHeartbeat (text : Bytes) (device_id : Bytes) (now : UInt64) : Prop :=
  ∃ members, Json.parse text = some (.object members) ∧
    ((Json.object members).member (ascii "device_id")).bind Json.string? = some device_id ∧
    ((Json.object members).member (ascii "ts_ms")).bind Json.number? = some (now.toNat : ℚ)

/-- No newline in the identifiers, nor in as much of the unit as the 512 bytes of a record take. -/
def NewlineFree [CDouble V] (p : Telemetry V) : Prop :=
  (0x0A : UInt8) ∉ p.device_id.bytes ∧ (0x0A : UInt8) ∉ p.point_id.bytes ∧
    (0x0A : UInt8) ∉ p.unit.bytes.take
      (436 - ((dec p.ts_ms.toNat).length + p.device_id.bytes.length + p.point_id.bytes.length +
        (CDouble.fmtF4 p.value).length))

/-- The texts that their buffers do not cut say what was meant, and a record is one line. -/
structure JsonTextsFaithful [CDouble V] (p : Telemetry V) (cfg : GatewayConfig V)
    (now pending : UInt64) : Prop where
  message : (telemetryJsonText p).length < 384 → SaysTelemetry (telemetryToJson p 384) p
  record : (jsonlTelemetryText p).length < 512 →
    SaysTelemetry (snprintf 512 (jsonlTelemetryText p)) p
  line : (0x0A : UInt8) ∉ snprintf 512 (jsonlTelemetryText p)
  heartbeat : (heartbeatText cfg now pending).length < 128 →
    SaysHeartbeat (heartbeatPayload cfg now pending) cfg.device_id.bytes now

/-- What is pasted is clean; of a point that no record has room for, only newlines matter. -/
def JsonTextsClean [CDoublePrint V] (p : Telemetry V) (cfg : GatewayConfig V) : Prop :=
  (if printedLength p < 422 then CleanPoint p else NewlineFree p) ∧ CleanText cfg.device_id.bytes

namespace Proof

open Json

section
variable [CDouble V]

/-! ## The texts as pasted objects -/

/-- What follows the device in the telemetry message. -/
def messagePieces (p : Telemetry V) (value : Option ℚ) : List (Bytes × Piece) :=
  [(ascii "point_id", .quoted p.point_id.bytes),
    (ascii "value", .bare (CDouble.fmtF4 p.value) value), (ascii "unit", .quoted p.unit.bytes),
    (ascii "ts_ms", .bare (dec p.ts_ms.toNat) (some p.ts_ms.toNat)),
    (ascii "quality", .quoted (telemetryQualityToString p.quality))]

/-- What follows the type in the JSONL record. -/
def recordPieces (p : Telemetry V) (value : Option ℚ) : List (Bytes × Piece) :=
  [(ascii "ts_ms", .bare (dec p.ts_ms.toNat) (some p.ts_ms.toNat)),
    (ascii "device_id", .quoted p.device_id.bytes), (ascii "point_id", .quoted p.point_id.bytes),
    (ascii "value", .bare (CDouble.fmtF4 p.value) value), (ascii "unit", .quoted p.unit.bytes),
    (ascii "quality", .quoted (telemetryQualityToString p.quality))]

theorem telemetryJsonText_eq (p : Telemetry V) (value : Option ℚ) :
    telemetryJsonText p =
      renderObject (ascii "device_id", .quoted p.device_id.bytes) (messagePieces p value) := by
  have h1 : ascii "\x7b\"device_id\":\"" =
      0x7B :: 0x22 :: (ascii "device_id" ++ [0x22, 0x3A, 0x22]) := rfl
  have h2 : ascii "\",\"point_id\":\"" =
      0x22 :: 0x2C :: 0x22 :: (ascii "point_id" ++ [0x22, 0x3A, 0x22]) := rfl
  have h3 : ascii "\",\"value\":" = 0x22 :: 0x2C :: 0x22 :: (ascii "value" ++ [0x22, 0x3A]) := rfl
  have h4 : ascii ",\"unit\":\"" = 0x2C :: 0x22 :: (ascii "unit" ++ [0x22, 0x3A, 0x22]) := rfl
  have h5 : ascii "\",\"ts_ms\":" = 0x22 :: 0x2C :: 0x22 :: (ascii "ts_ms" ++ [0x22, 0x3A]) := rfl
  have h6 : ascii ",\"quality\":\"" = 0x2C :: 0x22 :: (ascii "quality" ++ [0x22, 0x3A, 0x22]) := rfl
  have h7 : ascii "\"\x7d" = [0x22, 0x7D] := rfl
  simp only [telemetryJsonText, telemetryJsonHead, renderObject, renderMember, renderRest,
    messagePieces, Piece.text, h1, h2, h3, h4, h5, h6, h7, List.append_assoc, List.cons_append,
    List.nil_append]

theorem jsonlTelemetryText_eq (p : Telemetry V) (value : Option ℚ) :
    jsonlTelemetryText p =
      renderObject (ascii "type", .quoted (ascii "telemetry")) (recordPieces p value) := by
  have h1 : ascii "\x7b\"type\":\"telemetry\",\"ts_ms\":" =
      0x7B :: 0x22 :: (ascii "type" ++ 0x22 :: 0x3A :: 0x22 :: (ascii "telemetry" ++
        0x22 :: 0x2C :: 0x22 :: (ascii "ts_ms" ++ [0x22, 0x3A]))) := rfl
  have h2 : ascii ",\"device_id\":\"" =
      0x2C :: 0x22 :: (ascii "device_id" ++ [0x22, 0x3A, 0x22]) := rfl
  have h3 : ascii "\",\"point_id\":\"" =
      0x22 :: 0x2C :: 0x22 :: (ascii "point_id" ++ [0x22, 0x3A, 0x22]) := rfl
  have h4 : ascii "\",\"value\":" = 0x22 :: 0x2C :: 0x22 :: (ascii "value" ++ [0x22, 0x3A]) := rfl
  have h5 : ascii ",\"unit\":\"" = 0x2C :: 0x22 :: (ascii "unit" ++ [0x22, 0x3A, 0x22]) := rfl
  have h6 : ascii "\",\"quality\":\"" =
      0x22 :: 0x2C :: 0x22 :: (ascii "quality" ++ [0x22, 0x3A, 0x22]) := rfl
  have h7 : ascii "\"\x7d" = [0x22, 0x7D] := rfl
  simp only [jsonlTelemetryText, renderObject, renderMember, renderRest, recordPieces, Piece.text,
    h1, h2, h3, h4, h5, h6, h7, List.append_assoc, List.cons_append, List.nil_append]

end

/-- What follows the device in the heartbeat. -/
def heartbeatPieces (now pending : UInt64) : List (Bytes × Piece) :=
  [(ascii "ts_ms", .bare (dec now.toNat) (some now.toNat)),
    (ascii "pending", .bare (dec pending.toUInt32.toNat) (some pending.toUInt32.toNat))]

theorem heartbeatText_eq (cfg : GatewayConfig V) (now pending : UInt64) :
    heartbeatText cfg now pending =
      renderObject (ascii "device_id", .quoted cfg.device_id.bytes)
        (heartbeatPieces now pending) := by
  have h1 : ascii "\x7b\"device_id\":\"" =
      0x7B :: 0x22 :: (ascii "device_id" ++ [0x22, 0x3A, 0x22]) := rfl
  have h2 : ascii "\",\"ts_ms\":" = 0x22 :: 0x2C :: 0x22 :: (ascii "ts_ms" ++ [0x22, 0x3A]) := rfl
  have h3 : ascii ",\"pending\":" = 0x2C :: 0x22 :: (ascii "pending" ++ [0x22, 0x3A]) := rfl
  have h4 : ascii "\x7d" = [0x7D] := rfl
  simp only [heartbeatText, renderObject, renderMember, renderRest, heartbeatPieces, Piece.text, h1,
    h2, h3, h4, List.append_assoc, List.cons_append, List.nil_append]


/-! ## What is pasted -/

/-- What `%.4f` prints is a number, or no JSON at all. -/
theorem fmtF4_known [CDoublePrint V] (v : V) :
    ∃ value : Option ℚ, (Piece.bare (CDouble.fmtF4 v) value).Known ∧
      value.isSome = CDoublePrint.finite v := by
  cases hf : CDoublePrint.finite v with
  | true =>
    obtain ⟨neg, k, frac, hlen, hdigits, htext⟩ := CDoublePrint.fmtF4_finite v hf
    have hne : frac ≠ [] := by
      rintro rfl
      cases hlen
    have hnum : CDouble.fmtF4 v = numeral neg k frac := by
      have hminus : ascii "-" = [0x2D] := rfl
      have hpoint : ascii "." = [0x2E] := rfl
      rw [htext, numeral, if_neg hne, hminus, hpoint]
      simp
    refine ⟨some (numeralValue neg k frac), ?_, rfl⟩
    rw [hnum]
    exact numberText_numeral neg k fun b hb => decide_eq_true (hdigits b hb)
  | false =>
    obtain ⟨neg, htext⟩ := CDoublePrint.fmtF4_other v hf
    refine ⟨none, fun fuel rest => ?_, rfl⟩
    obtain ⟨hinf, hnan⟩ := no_value_inf_nan neg fuel rest
    rcases htext with htext | htext
    · rw [htext]
      exact hinf
    · rw [htext]
      exact hnan

theorem clean_dec (n : Nat) :
    (Piece.bare (dec n) (some n)).Clean ∧ isUtf8 (Piece.bare (dec n) (some n)).body = true :=
  ⟨rfl, isUtf8_of_ascii (numberText_dec n).low⟩

theorem cleanText_quality (q : TelemetryQuality) : CleanText (telemetryQualityToString q) := by
  cases q with
  | good => exact ⟨by decide, by decide⟩
  | bad => exact ⟨by decide, by decide⟩
  | uncertain => exact ⟨by decide, by decide⟩

/-- The members of a text that says a point: its five, and others that cannot go wrong. -/
structure PointPieces [CDouble V] (p : Telemetry V) (value : Option ℚ)
    (ms : List (Bytes × Piece)) : Prop where
  known : ∀ m ∈ ms, GoodKey m.1 ∧ m.2.Known
  nodup : (ms.map Prod.fst).Nodup
  device : (ascii "device_id", .quoted p.device_id.bytes) ∈ ms
  point : (ascii "point_id", .quoted p.point_id.bytes) ∈ ms
  number : (ascii "value", .bare (CDouble.fmtF4 p.value) value) ∈ ms
  unit : (ascii "unit", .quoted p.unit.bytes) ∈ ms
  ts : (ascii "ts_ms", .bare (dec p.ts_ms.toNat) (some p.ts_ms.toNat)) ∈ ms
  quality : (ascii "quality", .quoted (telemetryQualityToString p.quality)) ∈ ms
  others : ∀ m ∈ ms, (m.2.Clean ∧ isUtf8 m.2.body = true) ∨
    m = (ascii "device_id", .quoted p.device_id.bytes) ∨
    m = (ascii "point_id", .quoted p.point_id.bytes) ∨
    m = (ascii "value", .bare (CDouble.fmtF4 p.value) value) ∨
    m = (ascii "unit", .quoted p.unit.bytes)

/-- **A text says the point exactly when what it pastes is clean.** -/
theorem saysTelemetry_iff [CDouble V] {p : Telemetry V} {value : Option ℚ} {m : Bytes × Piece}
    {ms : List (Bytes × Piece)} (h : PointPieces p value (m :: ms)) :
    SaysTelemetry (renderObject m ms) p ↔
      value.isSome = true ∧ CleanText p.device_id.bytes ∧ CleanText p.point_id.bytes ∧
        CleanText p.unit.bytes := by
  constructor
  · rintro ⟨members, hparse, hdev, hpoint, hunit, _, _⟩
    -- of the strings, the members say three; the others are plain by themselves
    have hfaith : Faithful (m :: ms) members := by
      intro key raw hmem
      rcases h.others _ hmem with ⟨hplain, _⟩ | hq | hq | hq | hq
      · exact .inl hplain
      · obtain ⟨rfl, rfl⟩ := quoted_inj hq
        exact .inr hdev
      · obtain ⟨rfl, rfl⟩ := quoted_inj hq
        exact .inr hpoint
      · cases (Prod.mk.inj hq).2
      · obtain ⟨rfl, rfl⟩ := quoted_inj hq
        exact .inr hunit
    have hclean := clean_of_parse h.known h.nodup hparse hfaith
    exact ⟨(hclean _ h.number).1, hclean _ h.device, hclean _ h.point, hclean _ h.unit⟩
  · rintro ⟨hsome, hdev, hpoint, hunit⟩
    have hclean : ∀ m' ∈ m :: ms, m'.2.Clean ∧ isUtf8 m'.2.body = true := by
      intro m' hm'
      rcases h.others m' hm' with hc | rfl | rfl | rfl | rfl
      · exact hc
      · exact hdev
      · exact hpoint
      · exact ⟨hsome, Piece.Known.isUtf8_bare (h.known _ hm').2 hsome⟩
      · exact hunit
    have hparse := parse_renderObject
      (fun m' hm' => ⟨(h.known m' hm').1, (h.known m' hm').2, (hclean m' hm').1⟩)
      (fun m' hm' => (hclean m' hm').2)
    refine ⟨_, hparse, ?_, ?_, ?_, ?_, ?_⟩
    · rw [member_map h.nodup h.device]
      rfl
    · rw [member_map h.nodup h.point]
      rfl
    · rw [member_map h.nodup h.unit]
      rfl
    · rw [member_map h.nodup h.quality]
      rfl
    · rw [member_map h.nodup h.ts]
      rfl

/-! ## The three texts -/

section
variable [CDouble V]

theorem messagePieces_point (p : Telemetry V) {value : Option ℚ}
    (hvalue : (Piece.bare (CDouble.fmtF4 p.value) value).Known) :
    PointPieces p value
      ((ascii "device_id", .quoted p.device_id.bytes) :: messagePieces p value) where
  known := by
    simp only [messagePieces, List.forall_mem_cons]
    exact ⟨⟨goodKey_of_keyOk (by decide), trivial⟩, ⟨goodKey_of_keyOk (by decide), trivial⟩,
      ⟨goodKey_of_keyOk (by decide), hvalue⟩, ⟨goodKey_of_keyOk (by decide), trivial⟩,
      ⟨goodKey_of_keyOk (by decide), numberText_dec _⟩, ⟨goodKey_of_keyOk (by decide), trivial⟩,
      by simp⟩
  nodup := by
    change [ascii "device_id", ascii "point_id", ascii "value", ascii "unit", ascii "ts_ms",
      ascii "quality"].Nodup
    decide
  device := by simp
  point := by simp [messagePieces]
  number := by simp [messagePieces]
  unit := by simp [messagePieces]
  ts := by simp [messagePieces]
  quality := by simp [messagePieces]
  others := by
    simp only [messagePieces, List.forall_mem_cons]
    exact ⟨.inr (.inl trivial), .inr (.inr (.inl trivial)), .inr (.inr (.inr (.inl trivial))),
      .inr (.inr (.inr (.inr trivial))), .inl (clean_dec _), .inl (cleanText_quality p.quality),
      by simp⟩

theorem recordPieces_point (p : Telemetry V) {value : Option ℚ}
    (hvalue : (Piece.bare (CDouble.fmtF4 p.value) value).Known) :
    PointPieces p value ((ascii "type", .quoted (ascii "telemetry")) :: recordPieces p value) where
  known := by
    simp only [recordPieces, List.forall_mem_cons]
    exact ⟨⟨goodKey_of_keyOk (by decide), trivial⟩,
      ⟨goodKey_of_keyOk (by decide), numberText_dec _⟩, ⟨goodKey_of_keyOk (by decide), trivial⟩,
      ⟨goodKey_of_keyOk (by decide), trivial⟩, ⟨goodKey_of_keyOk (by decide), hvalue⟩,
      ⟨goodKey_of_keyOk (by decide), trivial⟩, ⟨goodKey_of_keyOk (by decide), trivial⟩, by simp⟩
  nodup := by
    change [ascii "type", ascii "ts_ms", ascii "device_id", ascii "point_id", ascii "value",
      ascii "unit", ascii "quality"].Nodup
    decide
  device := by simp [recordPieces]
  point := by simp [recordPieces]
  number := by simp [recordPieces]
  unit := by simp [recordPieces]
  ts := by simp [recordPieces]
  quality := by simp [recordPieces]
  others := by
    have htype : CleanText (ascii "telemetry") := ⟨by decide, by decide⟩
    simp only [recordPieces, List.forall_mem_cons]
    exact ⟨.inl htype, .inl (clean_dec _), .inr (.inl trivial),
      .inr (.inr (.inl trivial)), .inr (.inr (.inr (.inl trivial))),
      .inr (.inr (.inr (.inr trivial))), .inl (cleanText_quality p.quality), by simp⟩

end

theorem saysTelemetry_message_iff [CDoublePrint V] (p : Telemetry V) :
    SaysTelemetry (telemetryJsonText p) p ↔ CleanPoint p := by
  obtain ⟨value, hknown, hsome⟩ := fmtF4_known p.value
  rw [telemetryJsonText_eq p value, saysTelemetry_iff (messagePieces_point p hknown), hsome]
  rfl

theorem saysTelemetry_record_iff [CDoublePrint V] (p : Telemetry V) :
    SaysTelemetry (jsonlTelemetryText p) p ↔ CleanPoint p := by
  obtain ⟨value, hknown, hsome⟩ := fmtF4_known p.value
  rw [jsonlTelemetryText_eq p value, saysTelemetry_iff (recordPieces_point p hknown), hsome]
  rfl

theorem heartbeatPieces_known (device_id : Bytes) (now pending : UInt64) :
    ∀ m ∈ (ascii "device_id", Piece.quoted device_id) :: heartbeatPieces now pending,
      GoodKey m.1 ∧ m.2.Known := by
  simp only [heartbeatPieces, List.forall_mem_cons]
  exact ⟨⟨goodKey_of_keyOk (by decide), trivial⟩, ⟨goodKey_of_keyOk (by decide), numberText_dec _⟩,
    ⟨goodKey_of_keyOk (by decide), numberText_dec _⟩, by simp⟩

theorem heartbeatPieces_nodup (device_id : Bytes) (now pending : UInt64) :
    (((ascii "device_id", Piece.quoted device_id) :: heartbeatPieces now pending).map
      Prod.fst).Nodup := by
  change [ascii "device_id", ascii "ts_ms", ascii "pending"].Nodup
  decide

/-- The heartbeat says whose it is exactly when the identifier is clean. -/
theorem saysHeartbeat_iff (cfg : GatewayConfig V) (now pending : UInt64) :
    SaysHeartbeat (heartbeatText cfg now pending) cfg.device_id.bytes now ↔
      CleanText cfg.device_id.bytes := by
  have hknown := heartbeatPieces_known cfg.device_id.bytes now pending
  have hnodup := heartbeatPieces_nodup cfg.device_id.bytes now pending
  have hid : (ascii "device_id", Piece.quoted cfg.device_id.bytes) ∈
      (ascii "device_id", Piece.quoted cfg.device_id.bytes) :: heartbeatPieces now pending :=
    List.mem_cons_self ..
  rw [heartbeatText_eq]
  constructor
  · rintro ⟨members, hparse, hdev, _⟩
    refine clean_of_parse hknown hnodup hparse (fun key raw hmem => ?_) _ hid
    rcases List.mem_cons.mp hmem with hq | hmem
    · obtain ⟨rfl, rfl⟩ := quoted_inj hq
      exact .inr hdev
    · simp [heartbeatPieces] at hmem
  · intro hclean
    have hall : ∀ m ∈ (ascii "device_id", Piece.quoted cfg.device_id.bytes) ::
        heartbeatPieces now pending, m.2.Clean ∧ isUtf8 m.2.body = true := by
      simp only [heartbeatPieces, List.forall_mem_cons]
      exact ⟨hclean, clean_dec _, clean_dec _, by simp⟩
    have hparse := parse_renderObject
      (fun m hm => ⟨(hknown m hm).1, (hknown m hm).2, (hall m hm).1⟩) fun m hm => (hall m hm).2
    have hts : (ascii "ts_ms", Piece.bare (dec now.toNat) (some now.toNat)) ∈
        (ascii "device_id", Piece.quoted cfg.device_id.bytes) :: heartbeatPieces now pending := by
      simp [heartbeatPieces]
    refine ⟨_, hparse, ?_, ?_⟩
    · rw [member_map hnodup hid]
      rfl
    · rw [member_map hnodup hts]
      rfl

/-! ## One line -/

theorem mem_take_append_left {b : UInt8} {xs : Bytes} (ys : Bytes) (n : Nat) (h : b ∉ xs) :
    b ∈ (xs ++ ys).take n ↔ b ∈ ys.take (n - xs.length) := by
  rw [List.take_append, List.mem_append]
  constructor
  · rintro (hx | hy)
    · exact absurd (List.mem_of_mem_take hx) h
    · exact hy
  · exact .inr

theorem mem_take_append_right {b : UInt8} (xs : Bytes) {ys : Bytes} (n : Nat) (h : b ∉ ys) :
    b ∈ (xs ++ ys).take n ↔ b ∈ xs.take n := by
  rw [List.take_append, List.mem_append]
  constructor
  · rintro (hx | hy)
    · exact hx
    · exact absurd (List.mem_of_mem_take hy) h
  · exact .inl

theorem newline_not_mem_dec (n : Nat) : (0x0A : UInt8) ∉ dec n :=
  fun h => absurd (mem_dec h).1 (by decide)

theorem newline_not_mem_fmtF4 [CDoublePrint V] (v : V) : (0x0A : UInt8) ∉ CDouble.fmtF4 v := by
  cases hf : CDoublePrint.finite v with
  | true =>
    obtain ⟨neg, k, frac, _, hdigits, htext⟩ := CDoublePrint.fmtF4_finite v hf
    have hfrac : (0x0A : UInt8) ∉ frac := fun h => absurd (hdigits _ h).1 (by decide)
    have hpoint : (0x0A : UInt8) ∉ ascii "." := by decide
    rw [htext]
    simp only [List.mem_append, not_or]
    refine ⟨⟨⟨?_, newline_not_mem_dec k⟩, hpoint⟩, hfrac⟩
    split <;> decide
  | false =>
    obtain ⟨neg, htext⟩ := CDoublePrint.fmtF4_other v hf
    rcases htext with htext | htext
    · rw [htext]
      cases neg <;> decide
    · rw [htext]
      cases neg <;> decide

/-- What stands behind the unit in a record. -/
theorem newline_not_mem_quality (q : TelemetryQuality) :
    (0x0A : UInt8) ∉
      ascii "\",\"quality\":\"" ++ (telemetryQualityToString q ++ ascii "\"\x7d") := by
  cases q with
  | good => decide
  | bad => decide
  | uncertain => decide

/-- **Where a newline in a record can come from.** The identifiers are never cut, since what
    stands before them is short; the unit may be. -/
theorem newline_not_mem_record_iff [CDoublePrint V] (p : Telemetry V) :
    (0x0A : UInt8) ∉ snprintf 512 (jsonlTelemetryText p) ↔ NewlineFree p := by
  have h1 : (0x0A : UInt8) ∉ ascii "\x7b\"type\":\"telemetry\",\"ts_ms\":" ∧
      (ascii "\x7b\"type\":\"telemetry\",\"ts_ms\":").length = 28 := by decide
  have h2 : (0x0A : UInt8) ∉ ascii ",\"device_id\":\"" ∧
      (ascii ",\"device_id\":\"").length = 14 := by decide
  have h3 : (0x0A : UInt8) ∉ ascii "\",\"point_id\":\"" ∧
      (ascii "\",\"point_id\":\"").length = 14 := by decide
  have h4 : (0x0A : UInt8) ∉ ascii "\",\"value\":" ∧
      (ascii "\",\"value\":").length = 10 := by decide
  have h5 : (0x0A : UInt8) ∉ ascii ",\"unit\":\"" ∧ (ascii ",\"unit\":\"").length = 9 := by decide
  have hdev := p.device_id.fits
  have hpoint := p.point_id.fits
  have hts := length_dec_uint64 p.ts_ms
  have hroom : ∀ d e f : Nat, 512 - 1 - 28 - d - 14 - e - 14 - f - 10 -
      (CDouble.fmtF4 p.value).length - 9 = 436 - (d + e + f + (CDouble.fmtF4 p.value).length) := by
    intro d e f
    omega
  unfold snprintf jsonlTelemetryText NewlineFree
  simp only [List.append_assoc]
  -- the two identifiers, whole
  rw [mem_take_append_left _ _ h1.1, mem_take_append_left _ _ (newline_not_mem_dec _),
    mem_take_append_left _ _ h2.1, h1.2, h2.2, List.take_append, List.mem_append,
    List.take_of_length_le (l := p.device_id.bytes) (by omega),
    mem_take_append_left _ _ h3.1, h3.2, List.take_append, List.mem_append,
    List.take_of_length_le (l := p.point_id.bytes) (by omega)]
  -- the value can be as long as it likes, so the unit may begin behind the end of the buffer
  rw [mem_take_append_left _ _ h4.1, h4.2, mem_take_append_left _ _ (newline_not_mem_fmtF4 p.value),
    mem_take_append_left _ _ h5.1, h5.2,
    mem_take_append_right _ _ (newline_not_mem_quality p.quality), hroom, not_or, not_or]

theorem CleanText.no_newline {bs : Bytes} (h : CleanText bs) : (0x0A : UInt8) ∉ bs :=
  fun hb => (h.1 _ hb).2.2 (by decide)

theorem CleanPoint.newlineFree [CDoublePrint V] {p : Telemetry V} (h : CleanPoint p) :
    NewlineFree p := by
  obtain ⟨_, hdev, hpoint, hunit⟩ := h
  refine ⟨CleanText.no_newline hdev, CleanText.no_newline hpoint, fun hb => ?_⟩
  exact CleanText.no_newline hunit (List.mem_of_mem_take hb)

/-- **The JSON texts are valid and faithful exactly when what is pasted into them is clean.** -/
theorem json_texts_faithful_iff [CDoublePrint V] (p : Telemetry V) (cfg : GatewayConfig V)
    (now pending : UInt64) :
    JsonTextsFaithful p cfg now pending ↔ JsonTextsClean p cfg := by
  have hheart : SaysHeartbeat (heartbeatPayload cfg now pending) cfg.device_id.bytes now ↔
      CleanText cfg.device_id.bytes := by
    rw [heartbeatPayload_eq]
    exact saysHeartbeat_iff cfg now pending
  have hrecord : (jsonlTelemetryText p).length < 512 →
      (SaysTelemetry (snprintf 512 (jsonlTelemetryText p)) p ↔ CleanPoint p) := by
    intro hlen
    rw [snprintf_of_fits hlen]
    exact saysTelemetry_record_iff p
  have hfits : printedLength p < 422 ↔ (jsonlTelemetryText p).length < 512 := by
    rw [length_jsonlTelemetryText]
    omega
  unfold JsonTextsClean
  constructor
  · intro h
    refine ⟨?_, hheart.mp (h.heartbeat ?_)⟩
    · split
      · rename_i hlen
        exact (hrecord (hfits.mp hlen)).mp (h.record (hfits.mp hlen))
      · exact (newline_not_mem_record_iff p).mp h.line
    · exact Nat.lt_of_le_of_lt (length_heartbeatText_le cfg now pending) (by decide)
  · rintro ⟨hpoint, hid⟩
    split at hpoint
    · rename_i hlen
      refine ⟨fun hfit => ?_, fun hfit => (hrecord hfit).mpr hpoint,
        (newline_not_mem_record_iff p).mpr (CleanPoint.newlineFree hpoint), fun _ => hheart.mpr hid⟩
      have htext : telemetryToJson p 384 = telemetryJsonText p := snprintf_of_fits hfit
      rw [htext]
      exact (saysTelemetry_message_iff p).mpr hpoint
    · -- neither text fits, and only the record's line is left to show
      rename_i hlen
      refine ⟨fun hfit => ?_, fun hfit => absurd (hfits.mpr hfit) hlen,
        (newline_not_mem_record_iff p).mpr hpoint, fun _ => hheart.mpr hid⟩
      rw [length_telemetryJsonText] at hfit
      omega

/-- A configuration whose device has a quote in its name, as the loader stores it. -/
def quotedDevice : Bool × GatewayConfig ℚ :=
  gatewayConfigLoad (fun _ _ => 0) Json.parse
    (some (ascii "\x7b\"device_id\":\"a\\\"b\"\x7d"))

/-- The quote ends the string that it is pasted into, and the heartbeat is no JSON. -/
theorem quoted_device_breaks_heartbeat :
    quotedDevice.1 = true ∧ quotedDevice.2.device_id.bytes = ascii "a\"b" ∧
      (Json.parse (heartbeatPayload quotedDevice.2 0 0)).isSome = false ∧
      ¬JsonTextsFaithful (telemetryInit 0 (ascii "a") (ascii "p") 0 (ascii "kW") 1)
        quotedDevice.2 0 0 := by
  have hok : quotedDevice.1 = true := by decide +kernel
  have hid : quotedDevice.2.device_id.bytes = ascii "a\"b" := by decide +kernel
  have hnone : (Json.parse (heartbeatPayload quotedDevice.2 0 0)).isSome = false := by
    decide +kernel
  refine ⟨hok, hid, hnone, fun h => ?_⟩
  obtain ⟨members, hparse, _⟩ := h.heartbeat
    (Nat.lt_of_le_of_lt (length_heartbeatText_le _ _ _) (by decide))
  rw [hparse] at hnone
  cases hnone

end Proof
end EdgeFlow
