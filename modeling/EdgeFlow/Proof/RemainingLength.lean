import Mathlib.Data.Nat.Bitwise
import EdgeFlow.Proof.MqttFrames

/-!
# The Remaining Length coding

`mqtt_encode_remaining_length` on every number, not only on those a sender lets through. Up to
`128 ^ 4 - 1` the four bytes are enough: the field is read back as the number whatever follows
it, and it is a shortest one, because a decoder that reads `k` bytes reads a number below
`128 ^ k` while the loop stops as soon as the number is spent. From `128 ^ 4` on the loop is
stopped by its second condition, after a byte that still announces another one; the last byte
of the field is therefore the place where the two cases can be told apart.
-/

set_option autoImplicit false

namespace EdgeFlow

/-- The `remaining` a sender encodes; PINGREQ has its zero written out. -/
def Sent.remaining : Sent → Nat
  | .connect client_id _ => 10 + 2 + client_id.length
  | .publish topic payload => 2 + topic.length + payload.length
  | .ping => 0

namespace Proof

open Lib Lib.Mqtt

/-! ## How long the field is -/

theorem encodeLoop_ne_nil (room n : Nat) : encodeLoop (room + 1) n ≠ [] := by
  unfold encodeLoop
  split
  · exact List.cons_ne_nil _ _
  · exact List.cons_ne_nil _ _

/-- A number below `128 ^ (k + 1)` is spent after `k + 1` bytes. -/
theorem encodeLoop_length_le_of_lt : ∀ room k n, n < 128 ^ (k + 1) →
    (encodeLoop room n).length ≤ k + 1 := by
  intro room
  induction room with
  | zero =>
    intro k n _
    exact Nat.zero_le (k + 1)
  | succ room ih =>
    intro k n h
    rw [encodeLoop]
    split
    · rename_i hpos
      cases k with
      | zero =>
        -- one byte holds the number, so the loop does not go on
        have hn : n < 128 := by simpa using h
        omega
      | succ k =>
        have hlen := ih k (n / 128) (div_lt_pow h)
        rw [List.length_cons]
        omega
    · rw [List.length_singleton]
      omega

/-- **The field is a shortest one**: whatever is decoded to `n` takes at least its bytes. -/
theorem encodeLoop_shortest {room fuel n : Nat} {bs rest : Bytes}
    (h : remLen fuel bs = .ok n rest) : (encodeLoop room n).length + rest.length ≤ bs.length := by
  obtain ⟨k, hlen, hlt⟩ := remLen_bound h
  have := encodeLoop_length_le_of_lt room k n hlt
  omega

/-! ## The last byte -/

theorem and_continuation_eq_zero_iff (b : UInt8) : b &&& 0x80 = 0 ↔ b.toNat < 128 := by
  have hlt : b.toNat < 256 := b.toNat_lt
  have hand : b.toNat &&& 128 = (b.toNat.testBit 7).toNat * 128 := Nat.and_two_pow b.toNat 7
  have hbit : b.toNat.testBit 7 = decide (b.toNat / 128 % 2 = 1) :=
    Nat.testBit_eq_decide_div_mod_eq
  rw [← UInt8.toNat_inj, UInt8.toNat_and]
  change b.toNat &&& 128 = 0 ↔ b.toNat < 128
  rw [hand, hbit]
  by_cases hhigh : b.toNat / 128 % 2 = 1
  · rw [decide_eq_true hhigh, Bool.toNat_true]
    omega
  · rw [decide_eq_false hhigh, Bool.toNat_false]
    omega

theorem last_byte_of_spent {n : Nat} (room : Nat) (h : ¬ 0 < n / 128) :
    UInt8.ofNat (n % 128) &&& 0x80 = 0 ↔ n < 128 ^ (room + 1) := by
  have hle : 128 ^ 1 ≤ 128 ^ (room + 1) := Nat.pow_le_pow_right (by omega) (by omega)
  rw [and_continuation_eq_zero_iff, toNat_ofNat_of_lt (by omega)]
  omega

/-- The last byte announces another one exactly when the loop ran out of room. -/
theorem getLast?_encodeLoop : ∀ room n, ∃ b, (encodeLoop (room + 1) n).getLast? = some b ∧
    (b &&& 0x80 = 0 ↔ n < 128 ^ (room + 1)) := by
  intro room
  induction room with
  | zero =>
    intro n
    rw [encodeLoop]
    split
    · -- the fourth byte, with the continuation bit set from what is left
      refine ⟨UInt8.ofNat (n % 128) ||| 0x80, rfl, ?_⟩
      have hb := toNat_or_continuation (Nat.mod_lt n (show 0 < 128 by omega))
      rw [and_continuation_eq_zero_iff, hb]
      omega
    · rename_i hspent
      exact ⟨_, rfl, last_byte_of_spent 0 hspent⟩
  | succ room ih =>
    intro n
    rw [encodeLoop]
    split
    · obtain ⟨b, hlast, hb⟩ := ih (n / 128)
      refine ⟨b, ?_, ?_⟩
      · rw [List.getLast?_cons, hlast]
        rfl
      · rw [hb, pow_succ 128 (room + 1), Nat.div_lt_iff_lt_mul (by omega)]
    · rename_i hspent
      exact ⟨_, rfl, last_byte_of_spent (room + 1) hspent⟩

/-! ## The callers -/

/-- The size check `1U + len_bytes + remaining > sizeof(buf)` in `size_t` is the one in numbers:
    the lengths of strings in memory are far from where the sum would wrap. -/
theorem size_check_size_t {n size : UInt64} (h : n.toNat < 2 ^ 63) :
    1 + UInt64.ofNat (mqttEncodeRemainingLength n.toNat).length + n ≤ size ↔
      1 + (mqttEncodeRemainingLength n.toNat).length + n.toNat ≤ size.toNat := by
  have hle := length_mqttEncodeRemainingLength_le n.toNat
  rw [UInt64.le_iff_toNat_le, UInt64.toNat_add, UInt64.toNat_add, UInt64.toNat_one,
    UInt64.toNat_ofNat']
  omega

/-- What a sender's size check lets through is far below the four bytes' range. -/
theorem remaining_le_of_fits {x : Sent} (h : x.fits = true) : x.remaining ≤ 1024 := by
  cases x with
  | connect client_id keepalive_sec =>
    simp only [Sent.fits, decide_eq_true_eq] at h
    simp only [Sent.remaining]
    omega
  | publish topic payload =>
    simp only [Sent.fits, decide_eq_true_eq] at h
    simp only [Sent.remaining]
    omega
  | ping => exact Nat.zero_le _

/-- **The Remaining Length coding.** Up to 268435455 the field has one to four bytes, is read
    back as the number with nothing else consumed, and no shorter one is; for every number it
    has at most four bytes, and its last byte has the continuation bit clear exactly up to
    268435455; what passes a sender's size check is well formed. -/
theorem remaining_length_coding :
    (∀ n, n ≤ 268435455 →
      1 ≤ (mqttEncodeRemainingLength n).length ∧ (mqttEncodeRemainingLength n).length ≤ 4 ∧
      (∀ rest, remLen 4 (mqttEncodeRemainingLength n ++ rest) = .ok n rest) ∧
      (∀ bs rest, bs.length < (mqttEncodeRemainingLength n).length →
        remLen 4 bs ≠ .ok n rest)) ∧
    (∀ n, (mqttEncodeRemainingLength n).length ≤ 4 ∧
      ∃ b, (mqttEncodeRemainingLength n).getLast? = some b ∧
        (b &&& 0x80 = 0 ↔ n ≤ 268435455)) ∧
    (∀ n size, size = 160 ∨ size = 1024 →
      1 + (mqttEncodeRemainingLength n).length + n ≤ size →
      IsRemLen (mqttEncodeRemainingLength n) n) ∧
    (∀ x : Sent, x.fits = true →
      IsRemLen (mqttEncodeRemainingLength x.remaining) x.remaining) := by
  refine ⟨?_, ?_, ?_, ?_⟩
  · intro n hn
    have hlt : n < 268435456 := by omega
    refine ⟨?_, length_mqttEncodeRemainingLength_le n, (isRemLen_encode hlt).whole, ?_⟩
    · exact List.length_pos_iff.mpr (encodeLoop_ne_nil 3 n)
    · intro bs rest hshort hread
      have hle : (mqttEncodeRemainingLength n).length + rest.length ≤ bs.length :=
        encodeLoop_shortest hread
      omega
  · intro n
    obtain ⟨b, hlast, hb⟩ := getLast?_encodeLoop 3 n
    refine ⟨length_mqttEncodeRemainingLength_le n, b, hlast, ?_⟩
    rw [hb]
    omega
  · intro n size hsize hle
    apply isRemLen_encode
    omega
  · intro x hx
    have := remaining_le_of_fits hx
    apply isRemLen_encode
    omega

/-- The first number of two bytes, between any other bytes. -/
theorem remaining_length_coding_128 :
    mqttEncodeRemainingLength 128 = [0x80, 0x01] ∧
    remLen 4 ([0x80, 0x01] ++ [0xFF, 0x00]) = .ok 128 [0xFF, 0x00] ∧
    remLen 4 [0x80] ≠ .ok 128 [] ∧
    IsRemLen (mqttEncodeRemainingLength 14) 14 := by
  have henc : mqttEncodeRemainingLength 128 = [0x80, 0x01] := by decide
  obtain ⟨-, -, hread, hshort⟩ := remaining_length_coding.1 128 (by decide)
  have hcall := remaining_length_coding.2.2.1 14 160 (Or.inl rfl) (by decide)
  rw [henc] at hread hshort
  exact ⟨henc, hread _, hshort _ _ (by decide), hcall⟩

end Proof
end EdgeFlow
