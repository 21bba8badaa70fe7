import EdgeFlow.Proof.Progress
import EdgeFlow.Runtime.Gateway

/-!
# No message is too long

Every text the gateway prints goes into a buffer of fixed size, and every PUBLISH through a size
check. The sizes of the fields bound the lengths of the texts: the telemetry message fits its
buffer to the last byte for a value of up to 142 characters, the JSONL record and the heartbeat
with room to spare, and a PUBLISH of either is below the limit whatever it says. So the check
never refuses one, and a publish fails only when a `write` does.
-/

set_option autoImplicit false

namespace EdgeFlow

open Lib

variable {V : Type}

/-- The text of `telemetry_to_json`, before a buffer cuts it. -/
def telemetryJsonText [CDouble V] (p : Telemetry V) : Bytes :=
  telemetryJsonHead p ++ (telemetryQualityToString p.quality ++ ascii "\"\x7d")

/-- What a point's own fields take in either text. -/
def printedLength [CDouble V] (p : Telemetry V) : Nat :=
  p.device_id.bytes.length + p.point_id.bytes.length + (CDouble.fmtF4 p.value).length +
    p.unit.bytes.length + (dec p.ts_ms.toNat).length + (telemetryQualityToString p.quality).length

/-- The last system call between the two states was a `write` on `fd` that failed: with a hard
    error, or because the broker's end is gone. -/
def WriteFailed (fd : Nat) (s s' : Net V) : Prop :=
  ∃ used ev, s.events = used ++ ev :: s'.events ∧ (ev.answer = .fail ∨ s'.goneAt fd = true)

namespace Proof

/-! ## Lengths -/

theorem length_dec_uint64 (n : UInt64) : (dec n.toNat).length ≤ 20 := by
  have hn := n.toNat_lt
  exact length_dec_le (by decide) (by omega)

theorem length_dec_uint32 (n : UInt32) : (dec n.toNat).length ≤ 10 := by
  have hn := n.toNat_lt
  exact length_dec_le (by decide) (by omega)

theorem length_quality_le (q : TelemetryQuality) : (telemetryQualityToString q).length ≤ 9 := by
  cases q <;> decide

theorem length_telemetryJsonText [CDouble V] (p : Telemetry V) :
    (telemetryJsonText p).length = 71 + printedLength p := by
  have h1 : (ascii "\x7b\"device_id\":\"").length = 14 := by decide
  have h2 : (ascii "\",\"point_id\":\"").length = 14 := by decide
  have h3 : (ascii "\",\"value\":").length = 10 := by decide
  have h4 : (ascii ",\"unit\":\"").length = 9 := by decide
  have h5 : (ascii "\",\"ts_ms\":").length = 10 := by decide
  have h6 : (ascii ",\"quality\":\"").length = 12 := by decide
  have h7 : (ascii "\"\x7d").length = 2 := by decide
  simp only [telemetryJsonText, telemetryJsonHead, printedLength, List.length_append, h1, h2, h3,
    h4, h5, h6, h7]
  omega

theorem length_jsonlTelemetryText [CDouble V] (p : Telemetry V) :
    (jsonlTelemetryText p).length = 90 + printedLength p := by
  have h1 : (ascii "\x7b\"type\":\"telemetry\",\"ts_ms\":").length = 28 := by decide
  have h2 : (ascii ",\"device_id\":\"").length = 14 := by decide
  have h3 : (ascii "\",\"point_id\":\"").length = 14 := by decide
  have h4 : (ascii "\",\"value\":").length = 10 := by decide
  have h5 : (ascii ",\"unit\":\"").length = 9 := by decide
  have h6 : (ascii "\",\"quality\":\"").length = 13 := by decide
  have h7 : (ascii "\"\x7d").length = 2 := by decide
  simp only [jsonlTelemetryText, printedLength, List.length_append, h1, h2, h3, h4, h5, h6, h7]
  omega

theorem length_heartbeatText_le (cfg : GatewayConfig V) (now pending : UInt64) :
    (heartbeatText cfg now pending).length ≤ 97 := by
  have h1 : (ascii "\x7b\"device_id\":\"").length = 14 := by decide
  have h2 : (ascii "\",\"ts_ms\":").length = 10 := by decide
  have h3 : (ascii ",\"pending\":").length = 11 := by decide
  have h4 : (ascii "\x7d").length = 1 := by decide
  have hid := cfg.device_id.fits
  have hnow := length_dec_uint64 now
  have hpending := length_dec_uint32 pending.toUInt32
  simp only [heartbeatText, List.length_append, h1, h2, h3, h4]
  omega

/-- The fields' sizes bound what is printed of them. -/
theorem printedLength_le [CDouble V] (p : Telemetry V) :
    printedLength p ≤ 170 + (CDouble.fmtF4 p.value).length := by
  have hdev := p.device_id.fits
  have hpoint := p.point_id.fits
  have hunit := p.unit.fits
  have hts := length_dec_uint64 p.ts_ms
  have hq := length_quality_le p.quality
  unfold printedLength
  omega

theorem snprintf_of_fits {n : Nat} {text : Bytes} (h : text.length < n) :
    snprintf n text = text :=
  List.take_of_length_le (by omega)

theorem heartbeatPayload_eq (cfg : GatewayConfig V) (now pending : UInt64) :
    heartbeatPayload cfg now pending = heartbeatText cfg now pending :=
  snprintf_of_fits (Nat.lt_of_le_of_lt (length_heartbeatText_le cfg now pending) (by decide))

/-- A payload of up to 383 bytes passes the size check, whatever the topic. -/
theorem fits_of_short (topic : CStr 128) {payload : Bytes} (h : payload.length ≤ 383) :
    (Sent.publish topic.bytes payload).fits = true := by
  have htopic := topic.fits
  have hlen := length_mqttEncodeRemainingLength_le (2 + topic.bytes.length + payload.length)
  simp only [Sent.fits, decide_eq_true_eq]
  omega

/-! ## A publish that fails -/

theorem writeFailed_prepend {fd : Nat} {s₀ s s' : Net V} (used : List Event)
    (hused : s₀.events = used ++ s.events) (h : WriteFailed fd s s') : WriteFailed fd s₀ s' := by
  obtain ⟨used', ev, hev, hfail⟩ := h
  exact ⟨used ++ used', ev, by rw [hused, hev, List.append_assoc], hfail⟩

theorem sysWrite_failed (fd : Nat) (buf : Bytes) (s₀ : Net V) :
    Triple (fun s => s = s₀) (sysWrite fd buf)
      (fun r s => ∃ ev, s₀.events = ev :: s.events ∧
        (r = .error → ev.answer = .fail ∨ s.goneAt fd = true)) (fun _ _ => True) := by
  rintro s rfl
  unfold sysWrite
  rcases hev : s.events with _ | ⟨ev, evs⟩
  · rw [Prog.bind_apply_error (nextEvent_nil hev)]
    trivial
  rw [Prog.bind_apply_ok (nextEvent_cons hev)]
  have hevents : (brokerMove fd ev.resets { s with events := evs }).events = evs := by
    unfold brokerMove Net.modConn
    split <;> rfl
  simp only [Prog.bind_apply, Prog.modify_apply, Prog.get_apply]
  generalize brokerMove fd ev.resets { s with events := evs } = s₁ at hevents ⊢
  split_ifs with hgone
  · exact ⟨ev, by rw [← hevents]; rfl, fun _ => .inr hgone⟩
  · trivial
  · cases hans : ev.answer with
    | ok n data => exact ⟨ev, by rw [← hevents]; rfl, fun h => by cases h⟩
    | eintr => exact ⟨ev, by rw [← hevents]; rfl, fun h => by cases h⟩
    | fail => exact ⟨ev, by rw [← hevents]; rfl, fun _ => .inl hans⟩

/-- **The write loop gives up only on a failed `write`.** -/
theorem writeLoop_failed (fd : Nat) : ∀ (fuel : Nat) (buf : Bytes) (s₀ : Net V),
    Triple (fun s => s = s₀) (writeLoop fd fuel buf)
      (fun r s => (∃ used, s₀.events = used ++ s.events) ∧ (r = false → WriteFailed fd s₀ s))
      (fun _ _ => True) := by
  intro fuel
  induction fuel with
  | zero =>
    intro buf s₀
    cases buf with
    | nil => exact Triple.pure fun s h => ⟨⟨[], h ▸ rfl⟩, fun hr => by cases hr⟩
    | cons b bs => exact Triple.stop fun _ _ => trivial
  | succ fuel ih =>
    intro buf s₀
    cases buf with
    | nil => exact Triple.pure fun s h => ⟨⟨[], h ▸ rfl⟩, fun hr => by cases hr⟩
    | cons b bs =>
      refine Triple.bind_at (sysWrite_failed fd (b :: bs) s₀) fun r s₁ h₁ => ?_
      obtain ⟨ev, hev, hfail⟩ := h₁
      have hagain : ∀ buf, Triple (fun s => s = s₁) (writeLoop fd fuel buf)
          (fun r s => (∃ used, s₀.events = used ++ s.events) ∧ (r = false → WriteFailed fd s₀ s))
          (fun _ _ => True) := by
        intro buf
        refine (ih buf s₁).post fun r s h => ?_
        obtain ⟨⟨used, hused⟩, hf⟩ := h
        refine ⟨⟨ev :: used, by rw [hev, hused]; rfl⟩, fun hr => ?_⟩
        exact writeFailed_prepend [ev] hev (hf hr)
      cases r with
      | took n => exact hagain _
      | eintr => exact hagain _
      | error =>
        refine Triple.pure fun s h => ?_
        subst h
        exact ⟨⟨[ev], hev⟩, fun _ => ⟨[], ev, hev, hfail rfl⟩⟩

/-- **What passes the size check fails only on a failed `write`.** -/
theorem mqttSend_failed {fd : Nat} {x : Sent} (hfits : x.fits = true) (s₀ : Net V) :
    Triple (fun s => s = s₀) (mqttSend fd x)
      (fun r s => (∃ used, s₀.events = used ++ s.events) ∧ (r = false → WriteFailed fd s₀ s))
      (fun _ _ => True) := by
  unfold mqttSend
  rw [if_pos hfits]
  refine Triple.bind (Q := fun r s => (∃ used, s₀.events = used ++ s.events) ∧
    (r = false → WriteFailed fd s₀ s)) ?_ fun r => ?_
  · exact Triple.get_bind fun s h => h ▸ writeLoop_failed fd _ x.bytes s
  · cases r with
    | true =>
      refine Triple.bind (Triple.modify (Q := fun _ s => ∃ used, s₀.events = used ++ s.events)
        fun s h => h.1) fun _ => Triple.pure fun s h => ⟨h, fun hr => by cases hr⟩
    | false => exact Triple.pure fun s h => h

/-- Closing the session uses no answer and leaves the broker's end and the sends alone. -/
theorem mqttShutdownLocked_quiet (s₀ : Net V) :
    Triple (fun s => s = s₀) (mqttShutdownLocked : Sys V Unit)
      (fun _ s => s.events = s₀.events ∧ s.sends = s₀.sends ∧ ∀ i, s.goneAt i = s₀.goneAt i)
      (fun _ _ => False) := by
  rintro s rfl
  unfold mqttShutdownLocked
  rw [Prog.bind_apply_ok (Prog.get_apply s)]
  cases hfd : s.fd with
  | none => exact ⟨rfl, rfl, fun _ => rfl⟩
  | some fd =>
    refine ⟨rfl, rfl, fun i => ?_⟩
    exact goneAt_modConn s fd (g := fun c => { c with closed := true }) (fun _ => rfl) i

/-- A send on the session's descriptor: gone out whole, or failed at a `write`. -/
theorem sendOrShutdown_failed {fd : Nat} {x : Sent} (hfits : x.fits = true) {s₀ : Net V}
    (hfd : s₀.fd = some fd) :
    Triple (fun s => s = s₀) (sendOrShutdown x : Sys V Bool)
      (fun r s => (∃ used, s₀.events = used ++ s.events) ∧
        if r then SentOn s₀ s fd x else s.sends = s₀.sends ∧ WriteFailed fd s₀ s)
      (fun _ _ => True) := by
  unfold sendOrShutdown
  refine Triple.get_bind fun s h => ?_
  subst h
  rw [hfd]
  refine Triple.bind_at (((mqttSend_failed hfits s).and (mqttSend_spec fd x s)).halts
    fun _ _ _ => trivial) fun r s₁ h₁ => ?_
  obtain ⟨⟨⟨used, hused⟩, hfail⟩, hspec⟩ := h₁
  cases r with
  | true =>
    refine Triple.pure fun s' h => ?_
    subst h
    exact ⟨⟨used, hused⟩, hspec⟩
  | false =>
    obtain ⟨t, hwrote, _⟩ : CutOn s s₁ fd x := hspec
    refine Triple.bind_at ((mqttShutdownLocked_quiet s₁).halts fun _ _ h => h.elim)
      fun _ s₂ h₂ => ?_
    obtain ⟨hevents, hsends, hgone⟩ := h₂
    refine Triple.pure fun s' h => ?_
    subst h
    obtain ⟨used', ev, hev, hbad⟩ := hfail rfl
    refine ⟨⟨used, by rw [hevents]; exact hused⟩, hsends.trans hwrote.sends, used', ev, ?_, ?_⟩
    · rw [hevents]
      exact hev
    · rw [hgone]
      exact hbad

theorem mqttSendConnect_fd (fd : Nat) (client_id : Bytes) (keepalive_sec : UInt16) (s₀ : Net V) :
    Triple (fun s => s = s₀) (mqttSendConnect fd client_id keepalive_sec : Sys V Bool)
      (fun _ s => s.fd = s₀.fd) (fun _ _ => True) := by
  unfold mqttSendConnect
  refine Triple.bind_at ((mqttSend_spec fd _ s₀).halts fun _ _ _ => trivial) fun r s₁ h₁ => ?_
  cases r with
  | false =>
    obtain ⟨t, hwrote, _⟩ : CutOn s₀ s₁ fd _ := h₁
    exact Triple.pure fun s h => h ▸ hwrote.fd_eq
  | true =>
    have hsent : SentOn s₀ s₁ fd _ := h₁
    refine Triple.bind_at ((sysRead_spec fd 160 s₁).halts fun _ _ _ => trivial) fun data s₂ h₂ => ?_
    have hfd : s₂.fd = s₀.fd := h₂.fd_eq.trans hsent.fd_eq
    cases data with
    | none => exact Triple.pure fun s h => h ▸ hfd
    | some data =>
      simp only
      split_ifs
      · exact Triple.pure fun s h => h ▸ hfd
      · exact Triple.pure fun s h => h ▸ hfd

/-- A session that says it is connected has a descriptor. -/
theorem mqttEnsureConnectedLocked_fd :
    Triple (fun _ => True) (mqttEnsureConnectedLocked : Sys V Bool)
      (fun r s => r = true → ∃ fd, s.fd = some fd) (fun _ _ => True) := by
  have hany : ∀ {α : Type} (x : Sys V α),
      Triple (fun _ => True) x (fun _ _ => True) (fun _ _ => True) := by
    intro α x s _
    rcases x s with ⟨_ | _, _⟩
    · trivial
    · trivial
  unfold mqttEnsureConnectedLocked
  refine Triple.get_bind fun s₀ _ => ?_
  by_cases hup : (s₀.connected && s₀.fd.isSome) = true
  · rw [if_pos hup]
    refine Triple.pure fun s h _ => ?_
    subst h
    simp only [Bool.and_eq_true, Option.isSome_iff_exists] at hup
    exact hup.2
  · rw [if_neg hup]
    refine Triple.bind ((hany mqttShutdownLocked).pre fun _ _ => trivial) fun _ => ?_
    refine Triple.bind (hany mqttOpenTcp) fun r => ?_
    cases r with
    | none =>
      exact Triple.bind (hany _) fun _ => Triple.pure fun _ _ hr => by cases hr
    | some fd =>
      refine Triple.bind (Q := fun _ s => s.fd = some fd) (Triple.modify fun _ _ => rfl) fun _ => ?_
      refine Triple.bind (Q := fun _ s => s.fd = some fd) ?_ fun r => ?_
      · refine Triple.at_state fun s₁ h₁ => ?_
        exact (mqttSendConnect_fd fd _ _ s₁).post fun _ s h => h.trans h₁
      · cases r with
        | true =>
          exact Triple.bind (Q := fun _ s => s.fd = some fd) (Triple.modify fun _ h => h)
            fun _ => Triple.pure fun s h _ => ⟨fd, h⟩
        | false =>
          exact Triple.bind ((hany mqttShutdownLocked).pre fun _ _ => trivial)
            fun _ => Triple.pure fun _ _ hr => by cases hr

/-- The mark of a row uses one answer, and the session sees nothing else of it. -/
theorem sysOk_uses (s₀ : Net V) :
    Triple (fun s => s = s₀) (sysOk : Sys V Bool)
      (fun _ s => (∃ ev, s₀.events = ev :: s.events) ∧ s = { s₀ with events := s.events })
      (fun _ _ => True) := by
  rintro s rfl
  unfold sysOk
  rcases hev : s.events with _ | ⟨ev, evs⟩
  · rw [Prog.bind_apply_error (nextEvent_nil hev)]
    trivial
  · rw [Prog.bind_apply_ok (nextEvent_cons hev)]
    exact ⟨⟨ev, rfl⟩, rfl⟩

section
variable [CDouble V]

/-- The message of a row. -/
def rowMessage (cfg : GatewayConfig V) (fd : Nat) (r : StorageTelemetryRow V) : Nat × Sent :=
  (fd, .publish cfg.mqtt_topic.bytes (telemetryToJson r.point 384))

/-- What the replay loop comes to, from the state `s` in which the session is connected as `fd`:
    every row is sent, or those up to the `write` that failed. -/
def SentUntilFailure (fd : Nat) (rows : List (StorageTelemetryRow V)) (s s' : Net V) : Prop :=
  s'.sends = s.sends ++ rows.map (rowMessage s.cfg fd) ∨
    ∃ sent r behind, rows = sent ++ r :: behind ∧
      s'.sends = s.sends ++ sent.map (rowMessage s.cfg fd) ∧ WriteFailed fd s s'

theorem replayPublish_failed {fd : Nat} (p : Telemetry V) {s₀ : Net V} (hfd : s₀.fd = some fd) :
    Triple (fun s => s = s₀) (replayPublish p)
      (fun r s => (∃ used, s₀.events = used ++ s.events) ∧
        if r then SentOn s₀ s fd (.publish s₀.cfg.mqtt_topic.bytes (telemetryToJson p 384))
        else s.sends = s₀.sends ∧ WriteFailed fd s₀ s) (fun _ _ => True) := by
  refine Triple.get_bind fun s h => ?_
  subst h
  exact sendOrShutdown_failed (publish_fits s.cfg p) hfd

/-- **The replay loop leaves a row behind only at a failed `write`**, by induction over the rows:
    they are sent one after the other until there are none left, or a `write` fails. -/
theorem replayRows_failed {fd : Nat} : ∀ (rows : List (StorageTelemetryRow V)) (replayed : Nat)
    {s₀ : Net V}, s₀.fd = some fd →
    Triple (fun s => s = s₀) (replayRows replayPublish (fun _ => sysOk) replayed rows)
      (fun _ s => SentUntilFailure fd rows s₀ s) (fun _ _ => True) := by
  intro rows
  induction rows with
  | nil =>
    intro replayed s₀ _
    refine Triple.pure fun s h => ?_
    subst h
    exact .inl (by simp)
  | cons r rows ih =>
    intro replayed s₀ hfd
    unfold replayRows
    refine Triple.bind_at (replayPublish_failed r.point hfd) fun ok s₁ h₁ => ?_
    obtain ⟨⟨used, hused⟩, hok⟩ := h₁
    cases ok with
    | false =>
      refine Triple.pure fun s h => ?_
      subst h
      obtain ⟨hsends, hfail⟩ : s.sends = s₀.sends ∧ WriteFailed fd s₀ s := hok
      exact .inr ⟨[], r, rows, rfl, by rw [hsends]; simp, hfail⟩
    | true =>
      have hsent :
          SentOn s₀ s₁ fd (.publish s₀.cfg.mqtt_topic.bytes (telemetryToJson r.point 384)) := hok
      refine Triple.bind_at (sysOk_uses s₁) fun marked s₂ h₂ => ?_
      obtain ⟨⟨ev, hev⟩, hs₂⟩ := h₂
      have hused' : s₀.events = (used ++ [ev]) ++ s₂.events := by
        rw [hused, hev]
        simp
      have hfd₂ : s₂.fd = some fd := by
        rw [hs₂]
        exact hsent.fd_eq.trans hfd
      have hsends₂ : s₂.sends = s₀.sends ++ [rowMessage s₀.cfg fd r] := by
        rw [hs₂]
        exact hsent.sends
      have hcfg₂ : s₂.cfg = s₀.cfg := by
        rw [hs₂]
        exact hsent.cfg
      have hrest : ∀ n, Triple (fun s => s = s₂) (replayRows replayPublish (fun _ => sysOk) n rows)
          (fun _ s => SentUntilFailure fd (r :: rows) s₀ s) (fun _ _ => True) := by
        intro n
        refine (ih n hfd₂).post fun _ s h => ?_
        unfold SentUntilFailure at h
        rw [hcfg₂, hsends₂] at h
        rcases h with hall | ⟨sent, r', behind, hrows, hs, hfail⟩
        · exact .inl (by rw [hall]; simp)
        · refine .inr ⟨r :: sent, r', behind, by rw [hrows]; rfl, by rw [hs]; simp, ?_⟩
          exact writeFailed_prepend (used ++ [ev]) hused' hfail
      -- a failed mark does not stop the loop
      cases marked with
      | true => exact hrest _
      | false => exact hrest _

/-! ## The sizes -/

/-- **No point can jam the upload path by its size.** With a value of up to 142 characters the
    texts are whole; every PUBLISH passes the size check; a replayed publish fails only at a
    failed `write`; and once connected the replay goes through all its rows unless a `write`
    fails. -/
theorem no_point_jams_upload (cfg : GatewayConfig V) (p : Telemetry V)
    (hvalue : (CDouble.fmtF4 p.value).length ≤ 142) :
    telemetryToJson p 384 = telemetryJsonText p ∧
    (∀ (env : StorageEnv) (db : Storage V), (jsonlAppendTelemetry env db p).jsonl =
      if env.jsonlOk db.appends then db.jsonl ++ jsonlTelemetryText p ++ ascii "\n"
      else db.jsonl) ∧
    (∀ now pending, heartbeatPayload cfg now pending = heartbeatText cfg now pending ∧
      (Sent.publish cfg.mqtt_heartbeat_topic.bytes (heartbeatPayload cfg now pending)).fits =
        true) ∧
    (Sent.publish cfg.mqtt_topic.bytes (telemetryToJson p 384)).fits = true ∧
    (∀ (fd : Nat) (s s' : Net V), s.cfg = cfg → s.fd = some fd →
      replayPublish p s = (.ok false, s') → WriteFailed fd s s') ∧
    ∀ (rows : List (StorageTelemetryRow V)) (n : Nat) (s s' : Net V),
      mqttReplayLocked rows s = (.ok n, s') →
      (∃ s₁, mqttEnsureConnectedLocked s = (.ok false, s₁)) ∨
        ∃ fd s₁, mqttEnsureConnectedLocked s = (.ok true, s₁) ∧ s₁.fd = some fd ∧
          SentUntilFailure fd rows s₁ s' := by
  have hprinted := printedLength_le p
  refine ⟨?_, fun env db => ?_, fun now pending => ⟨heartbeatPayload_eq cfg now pending, ?_⟩,
    publish_fits cfg p, ?_, ?_⟩
  · refine snprintf_of_fits ?_
    have hlen := length_telemetryJsonText p
    unfold telemetryJsonText at hlen
    omega
  · have hline : snprintf 512 (jsonlTelemetryText p) = jsonlTelemetryText p := by
      refine snprintf_of_fits ?_
      rw [length_jsonlTelemetryText]
      omega
    simp only [jsonlAppendTelemetry, appendJsonlLine, hline]
  · have hlen := length_heartbeatText_le cfg now pending
    refine fits_of_short cfg.mqtt_heartbeat_topic ?_
    rw [heartbeatPayload_eq]
    omega
  · intro fd s s' _ hfd hrun
    have h := replayPublish_failed p hfd s rfl
    rw [hrun] at h
    exact h.2.2
  · intro rows n s s' hrun
    unfold mqttReplayLocked at hrun
    have hens := mqttEnsureConnectedLocked_fd (V := V) s trivial
    rcases he : mqttEnsureConnectedLocked s with ⟨e | ok, s₁⟩
    · rw [Prog.bind_apply_error he] at hrun
      cases hrun
    · rw [Prog.bind_apply_ok he] at hrun
      rw [he] at hens
      cases ok with
      | false => exact .inl ⟨s₁, rfl⟩
      | true =>
        obtain ⟨fd, hfd⟩ := hens rfl
        have h := replayRows_failed rows 0 hfd s₁ rfl
        rw [show replayRows replayPublish (fun _ => sysOk) 0 rows s₁ = (.ok n, s') from hrun] at h
        exact .inr ⟨fd, s₁, rfl, hfd, h⟩

end

/-- Every field full, and a value of 142 characters: the message takes all of its 383 bytes. -/
def fullPoint : Telemetry ℚ :=
  { telemetryInit 18446744073709551615 (List.replicate 63 0x61) (List.replicate 63 0x62) (10 ^ 136)
      (List.replicate 15 0x63) 1 with quality := .uncertain }

theorem no_point_jams_upload_full :
    (CDouble.fmtF4 fullPoint.value).length = 142 ∧ (telemetryJsonText fullPoint).length = 383 ∧
      telemetryToJson fullPoint 384 = telemetryJsonText fullPoint ∧
      (Sent.publish (gatewayConfigDefaults ℚ).mqtt_topic.bytes
        (telemetryToJson fullPoint 384)).fits = true := by
  have hvalue : (CDouble.fmtF4 fullPoint.value).length = 142 := by decide +kernel
  have hprinted : printedLength fullPoint = 312 := by decide +kernel
  obtain ⟨htext, _, _, hfits, _⟩ :=
    no_point_jams_upload (gatewayConfigDefaults ℚ) fullPoint (Nat.le_of_eq hvalue)
  exact ⟨hvalue, by rw [length_telemetryJsonText, hprinted], htext, hfits⟩

end Proof
end EdgeFlow
