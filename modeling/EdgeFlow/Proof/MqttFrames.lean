import Mathlib.Tactic.IntervalCases
import EdgeFlow.Lib.Mqtt
import EdgeFlow.Egress.MqttSession

/-!
# The session's packets are MQTT frames

`isFrame_of_fits`: whatever the size check of a sender lets through is a frame in the sense of
`Lib/Mqtt.lean` — a broker reads it as the packet it stands for, and reads nothing from a part
of it. The size check is what bounds the Remaining Length and the 16-bit length fields, so it
is the only hypothesis.
-/

set_option autoImplicit false

namespace EdgeFlow

/-- What a broker reads a send as. -/
def Sent.packet : Sent → Lib.Mqtt.Packet
  | .connect client_id keepalive_sec =>
    .connect (Lib.ascii "MQTT") 0x04 0x02 keepalive_sec.toNat client_id
  | .publish topic payload => .publish false 0 false topic payload
  | .ping => .pingreq

namespace Proof

open Lib Lib.Mqtt

/-! ## The Remaining Length -/

theorem toNat_ofNat_of_lt {n : Nat} (h : n < 256) : (UInt8.ofNat n).toNat = n := by
  rw [UInt8.toNat_ofNat']
  exact Nat.mod_eq_of_lt h

/-- Setting the continuation bit of a seven-bit group adds 128 to it. -/
theorem toNat_or_continuation {n : Nat} (h : n < 128) :
    (UInt8.ofNat n ||| 0x80).toNat = n + 128 := by
  have hor : ∀ m : Fin 128, (m.val ||| 128) = m.val + 128 := by decide
  rw [UInt8.toNat_or, toNat_ofNat_of_lt (by omega)]
  exact hor ⟨n, h⟩

theorem encodeLoop_length_le : ∀ room n, (encodeLoop room n).length ≤ room
  | 0, _ => Nat.le_refl 0
  | room + 1, n => by
    unfold encodeLoop
    split
    · simpa using encodeLoop_length_le room (n / 128)
    · simp

theorem length_mqttEncodeRemainingLength_le (n : Nat) :
    (mqttEncodeRemainingLength n).length ≤ 4 := encodeLoop_length_le 4 n

theorem div_lt_pow {room n : Nat} (h : n < 128 ^ (room + 1)) : n / 128 < 128 ^ room := by
  rw [pow_succ] at h
  exact Nat.div_lt_of_lt_mul (by rwa [Nat.mul_comm])

/-- **The decoder undoes the loop**, whatever follows the encoding. -/
theorem remLen_encodeLoop : ∀ room n rest, n < 128 ^ (room + 1) →
    remLen (room + 1) (encodeLoop (room + 1) n ++ rest) = .ok n rest := by
  intro room
  induction room with
  | zero =>
    intro n rest h
    have hn : n < 128 := by simpa using h
    have hz : ¬ 0 < n / 128 := by omega
    simp [encodeLoop, hz, remLen, Nat.mod_eq_of_lt hn, toNat_ofNat_of_lt (show n < 256 by omega),
      hn]
  | succ room ih =>
    intro n rest h
    rw [encodeLoop]
    split
    · -- another byte follows
      have hb := toNat_or_continuation (Nat.mod_lt n (show 0 < 128 by omega))
      rw [List.cons_append, remLen, if_neg (by omega), ih _ rest (div_lt_pow h), hb]
      simp only [Parse.ok.injEq, and_true]
      omega
    · have hn : n < 128 := by omega
      have hb := toNat_ofNat_of_lt (show n % 128 < 256 by omega)
      rw [List.singleton_append, remLen, if_pos (by omega), hb, Nat.mod_eq_of_lt hn]

/-- A part of an encoding is waited for. -/
theorem remLen_encodeLoop_part : ∀ room n k, n < 128 ^ (room + 1) →
    k < (encodeLoop (room + 1) n).length →
    remLen (room + 1) ((encodeLoop (room + 1) n).take k) = .more := by
  intro room
  induction room with
  | zero =>
    intro n k h hk
    have hz : ¬ 0 < n / 128 := by simp at h; omega
    simp only [encodeLoop, hz, if_false, List.length_singleton] at hk
    obtain rfl : k = 0 := by omega
    rfl
  | succ room ih =>
    intro n k h hk
    cases k with
    | zero => rfl
    | succ k =>
      rw [encodeLoop] at hk ⊢
      split at hk
      · rename_i hpos
        have hb := toNat_or_continuation (Nat.mod_lt n (show 0 < 128 by omega))
        simp only [List.length_cons, Nat.add_lt_add_iff_right] at hk
        rw [if_pos hpos, List.take_succ_cons, remLen, if_neg (by omega),
          ih _ k (div_lt_pow h) hk]
      · simp only [List.length_singleton] at hk
        omega

theorem isRemLen_encode {n : Nat} (h : n < 268435456) :
    IsRemLen (mqttEncodeRemainingLength n) n where
  whole := fun rest => remLen_encodeLoop 3 n rest (by simpa using h)
  part := fun k hk => remLen_encodeLoop_part 3 n k (by simpa using h) hk

/-! ## Length-prefixed fields -/

theorem word_word16 {n : Nat} (h : n < 65536) (rest : Bytes) :
    word (word16 n ++ rest) = some (n, rest) := by
  have h1 := toNat_ofNat_of_lt (show n / 256 < 256 by omega)
  have h2 := toNat_ofNat_of_lt (show n % 256 < 256 by omega)
  simp only [word16, List.cons_append, List.nil_append, word, h1, h2, Option.some.injEq,
    Prod.mk.injEq, and_true]
  omega

theorem field_word16 {s : Bytes} (h : s.length < 65536) (rest : Bytes) :
    field (word16 s.length ++ (s ++ rest)) = some (s, rest) := by
  unfold field
  rw [word_word16 h]
  simp only [List.length_append, List.take_left', List.drop_left']
  rw [if_neg (by omega)]

/-! ## The three packets -/

theorem connectBody_eq (client_id : Bytes) (keepalive_sec : UInt16) (h : client_id.length < 65536) :
    connectBody ([0x00, 0x04] ++ ascii "MQTT" ++ [0x04, 0x02] ++ word16 keepalive_sec.toNat ++
      word16 client_id.length ++ client_id) =
      some (Sent.packet (.connect client_id keepalive_sec)) := by
  have hname : field ([0x00, 0x04] ++ ascii "MQTT" ++ [0x04, 0x02] ++
      word16 keepalive_sec.toNat ++ word16 client_id.length ++ client_id) =
      some (ascii "MQTT", 0x04 :: 0x02 :: (word16 keepalive_sec.toNat ++
        (word16 client_id.length ++ (client_id ++ [])))) := by
    have := field_word16 (s := ascii "MQTT") (by decide) (0x04 :: 0x02 ::
      (word16 keepalive_sec.toNat ++ (word16 client_id.length ++ (client_id ++ []))))
    rw [← this]
    simp [word16, show (ascii "MQTT").length = 4 from by decide]
  unfold connectBody
  rw [hname]
  simp only [word_word16 keepalive_sec.toNat_lt, field_word16 h]
  rfl

theorem publishBody_eq (topic payload : Bytes) (h : topic.length < 65536) :
    publishBody 0 (word16 topic.length ++ topic ++ payload) =
      some (Sent.packet (.publish topic payload)) := by
  unfold publishBody
  rw [List.append_assoc, field_word16 h]
  rfl

theorem length_word16 (n : Nat) : (word16 n).length = 2 := rfl

/-- **What passes a sender's size check is a frame.** -/
theorem isFrame_of_fits {x : Sent} (h : x.fits = true) : IsFrame x.bytes x.packet := by
  cases x with
  | connect client_id keepalive_sec =>
    simp only [Sent.fits, decide_eq_true_eq] at h
    refine IsFrame.mk' _ ?_ ?_
    · have hlen : ([0x00, 0x04] ++ ascii "MQTT" ++ [0x04, 0x02] ++
          word16 keepalive_sec.toNat ++ word16 client_id.length ++ client_id).length =
          10 + 2 + client_id.length := by
        simp only [List.length_append, length_word16, List.length_cons, List.length_nil,
          show (ascii "MQTT").length = 4 from by decide]
      rw [hlen]
      exact isRemLen_encode (by omega)
    · rw [parseBody, if_pos (by decide)]
      exact connectBody_eq client_id keepalive_sec (by omega)
  | publish topic payload =>
    simp only [Sent.fits, decide_eq_true_eq] at h
    refine IsFrame.mk' _ ?_ ?_
    · have hlen : (word16 topic.length ++ topic ++ payload).length =
          2 + topic.length + payload.length := by
        simp only [List.length_append, length_word16]
      rw [hlen]
      exact isRemLen_encode (by omega)
    · rw [parseBody, if_neg (by decide), if_pos (by decide)]
      exact publishBody_eq topic payload (by omega)
  | ping =>
    have hl : IsRemLen [0x00] ([] : Bytes).length := by
      refine ⟨fun rest => rfl, fun k hk => ?_⟩
      obtain rfl : k = 0 := by simpa using hk
      rfl
    exact IsFrame.mk' 0xC0 hl (by decide)

end Proof
end EdgeFlow
