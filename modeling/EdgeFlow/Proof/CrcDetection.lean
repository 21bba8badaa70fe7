import EdgeFlow.Lib.ShiftRegister
import EdgeFlow.Ingress.ModbusSerial

/-!
# What the checksum of a Modbus frame detects

`modbus_crc16` is the shift register of `Lib/ShiftRegister.lean`, sixteen bits wide with the taps
`0xA001`, fed the bits of the frame in the order they are transmitted (`toBitVec_modbusCrc16`).
The two checksum bytes, low byte first, are the register's own word in that order, so a frame
passes the check exactly when the register is zero behind its last byte. From there a corrupted
frame is a frame with a difference fed on top of it, and the library's three results apply: the
taps are three ones, the highest of them set, and the register comes back to one after 32767
shifts and not before.
-/

set_option autoImplicit false

namespace EdgeFlow
namespace Proof

open Lib Lib.ShiftRegister

/-- `0xA001`: the polynomial `x ^ 16 + x ^ 15 + x ^ 2 + 1`, lowest coefficient at the top. -/
def crcTaps : BitVec 16 := 0xA001#16

/-- Bit `i` of a frame in transmission order: least significant bit of each byte first. -/
def frameBit (frame : Bytes) (i : Nat) : Bool := (frame.getD (i / 8) 0).toBitVec.getLsbD (i % 8)

/-- The positions at which two frames of the length of `frame` differ. -/
def differing (frame corrupted : Bytes) : Finset Nat :=
  (Finset.range (8 * frame.length)).filter fun i => frameBit frame i ≠ frameBit corrupted i

/-- The errors the checksum is meant for: an odd number of bits, a burst within sixteen
    consecutive bits, and two bits less than 32767 positions apart. -/
inductive Detectable (frame corrupted : Bytes) : Prop where
  | odd (h : Odd (differing frame corrupted).card)
  | burst (start : Nat) (hne : (differing frame corrupted).Nonempty)
    (h : ∀ i ∈ differing frame corrupted, start ≤ i ∧ i < start + 16)
  | pair (i j : Nat) (hij : i < j) (hlt : j - i < 32767)
    (h : differing frame corrupted = {i, j})

/-! ## The checksum is the register -/

theorem and_one_ne_zero_iff (crc : UInt16) :
    crc &&& 0x0001 ≠ 0 ↔ crc.toBitVec.getLsbD 0 = true := by
  have hand : (crc &&& 0x0001).toNat = crc.toNat % 2 := by
    rw [UInt16.toNat_and]
    exact Nat.and_one_is_mod crc.toNat
  have hlow : crc.toBitVec.getLsbD 0 = decide (crc.toNat % 2 = 1) := Nat.testBit_zero crc.toNat
  rw [ne_eq, ← UInt16.toNat_inj, hand, hlow, decide_eq_true_eq, UInt16.toNat_zero]
  omega

theorem toBitVec_crcBit (crc : UInt16) : (crcBit crc).toBitVec = step crcTaps crc.toBitVec := by
  unfold crcBit step
  by_cases hlow : crc.toBitVec.getLsbD 0 = true
  · rw [if_pos ((and_one_ne_zero_iff crc).mpr hlow), if_pos hlow]
    rfl
  · rw [if_neg fun h => hlow ((and_one_ne_zero_iff crc).mp h), if_neg hlow]
    rfl

theorem toBitVec_crcBits (n : Nat) : ∀ crc : UInt16,
    (crcBits n crc).toBitVec = (step crcTaps)^[n] crc.toBitVec := by
  induction n with
  | zero =>
    intro crc
    rfl
  | succ n ih =>
    intro crc
    rw [crcBits, ih, toBitVec_crcBit, Function.iterate_succ_apply]

/-- A byte is fed least significant bit first. -/
theorem toBitVec_crcByte (crc : UInt16) (byte : UInt8) :
    (crcByte crc byte).toBitVec =
      run crcTaps 1#16 crc.toBitVec byte.toBitVec.getLsbD 8 := by
  have hout : byte.toUInt16.toBitVec >>> 8 = 0#16 := by
    apply BitVec.eq_of_getLsbD_eq
    intro i _
    simp
  have hbits : run crcTaps 1#16 crc.toBitVec byte.toUInt16.toBitVec.getLsbD 8 =
      run crcTaps 1#16 crc.toBitVec byte.toBitVec.getLsbD 8 := by
    apply run_congr
    intro i hi
    rw [UInt8.toBitVec_toUInt16, BitVec.getLsbD_setWidth, decide_eq_true (show i < 16 by omega),
      Bool.true_and]
  rw [crcByte, toBitVec_crcBits, UInt16.toBitVec_xor, iterate_step_absorb, hout,
    BitVec.xor_zero, hbits]

theorem frameBit_cons_of_lt (byte : UInt8) (frame : Bytes) {i : Nat} (hi : i < 8) :
    frameBit (byte :: frame) i = byte.toBitVec.getLsbD i := by
  rw [frameBit, Nat.div_eq_of_lt hi, Nat.mod_eq_of_lt hi, List.getD_cons_zero]

theorem frameBit_cons_add (byte : UInt8) (frame : Bytes) (i : Nat) :
    frameBit (byte :: frame) (8 + i) = frameBit frame i := by
  have hdiv : (8 + i) / 8 = i / 8 + 1 := by omega
  have hmod : (8 + i) % 8 = i % 8 := by omega
  rw [frameBit, hdiv, hmod, List.getD_cons_succ, frameBit]

/-- **The loop over the bytes is a run over the bits.** -/
theorem toBitVec_foldl_crcByte (frame : Bytes) : ∀ crc : UInt16,
    (frame.foldl crcByte crc).toBitVec =
      run crcTaps 1#16 crc.toBitVec (frameBit frame) (8 * frame.length) := by
  induction frame with
  | nil =>
    intro crc
    rfl
  | cons byte frame ih =>
    intro crc
    have hlen : 8 * (byte :: frame).length = 8 + 8 * frame.length := by
      rw [List.length_cons]
      omega
    have hhead : run crcTaps 1#16 crc.toBitVec (frameBit (byte :: frame)) 8 =
        run crcTaps 1#16 crc.toBitVec byte.toBitVec.getLsbD 8 :=
      run_congr crcTaps fun i hi => frameBit_cons_of_lt byte frame hi
    have htail : (fun i => frameBit (byte :: frame) (8 + i)) = frameBit frame :=
      funext (frameBit_cons_add byte frame)
    rw [List.foldl_cons, ih, toBitVec_crcByte, hlen, run_add, hhead, htail]

theorem toBitVec_modbusCrc16 (frame : Bytes) :
    (modbusCrc16 frame).toBitVec =
      run crcTaps 1#16 0xFFFF#16 (frameBit frame) (8 * frame.length) :=
  toBitVec_foldl_crcByte frame 0xFFFF

/-! ## A frame passes the check exactly when nothing is left in the register -/

/-- Two bytes behind each other on the line are one word of the register. -/
theorem getLsbD_word (lo hi : UInt8) {i : Nat} (h : i < 16) :
    (lo.toUInt16 ||| (hi.toUInt16 <<< 8)).toBitVec.getLsbD i = frameBit [lo, hi] i := by
  by_cases hlow : i < 8
  · rw [frameBit_cons_of_lt lo [hi] hlow]
    simp [hlow, h]
  · obtain ⟨j, rfl⟩ : ∃ j, i = 8 + j := ⟨i - 8, by omega⟩
    have hj : j < 8 := by omega
    rw [frameBit_cons_add, frameBit_cons_of_lt hi [] hj]
    simp [h]

theorem toBitVec_crc_append (msg : Bytes) (lo hi : UInt8) :
    (modbusCrc16 (msg ++ [lo, hi])).toBitVec = (step crcTaps)^[16]
      ((modbusCrc16 msg).toBitVec ^^^ (lo.toUInt16 ||| (hi.toUInt16 <<< 8)).toBitVec) := by
  rw [modbusCrc16, List.foldl_append, toBitVec_foldl_crcByte, ← run_word]
  exact (run_congr crcTaps fun i hi => getLsbD_word _ _ hi).symm

theorem crcTaps_top : crcTaps.getLsbD (16 - 1) = true := by decide

theorem crcCheck_append (msg : Bytes) (lo hi : UInt8) :
    crcCheck (msg ++ [lo, hi]) = (modbusCrc16 msg == lo.toUInt16 ||| (hi.toUInt16 <<< 8)) := by
  have hlen : (msg ++ [lo, hi]).length = msg.length + 2 := by simp
  have hlo : (msg ++ [lo, hi]).getD msg.length 0 = lo := by simp
  have hhi : (msg ++ [lo, hi]).getD (msg.length + 1) 0 = hi := by simp
  have hlast : msg.length + 2 - 1 = msg.length + 1 := by omega
  rw [crcCheck, recvCrc, hlen, Nat.add_sub_cancel, hlast, hlo, hhi, List.take_left]

theorem crcCheck_append_iff (msg : Bytes) (lo hi : UInt8) :
    crcCheck (msg ++ [lo, hi]) = true ↔ modbusCrc16 (msg ++ [lo, hi]) = 0 := by
  rw [crcCheck_append, beq_iff_eq, ← UInt16.toBitVec_inj, ← UInt16.toBitVec_inj (b := 0),
    toBitVec_crc_append]
  constructor
  · intro h
    rw [h, BitVec.xor_self]
    exact iterate_step_zero crcTaps 16
  · intro h
    exact BitVec.xor_eq_zero_iff.mp (iterate_step_eq_zero crcTaps_top h)

/-- **The residue**: a frame passes the check exactly when the checksum of all of it is zero. -/
theorem crcCheck_iff {frame : Bytes} (h : 2 ≤ frame.length) :
    crcCheck frame = true ↔ modbusCrc16 frame = 0 := by
  have hlen : (frame.drop (frame.length - 2)).length = 2 := by
    rw [List.length_drop]
    omega
  obtain ⟨lo, hi, hlast⟩ := List.length_eq_two.mp hlen
  have hsplit := List.take_append_drop (frame.length - 2) frame
  rw [hlast] at hsplit
  rw [← hsplit]
  exact crcCheck_append_iff _ lo hi

theorem toUInt8_and_mask (crc : UInt16) : (crc &&& 0xFF).toUInt8 = crc.toUInt8 := by
  have hand : (crc &&& 0xFF).toNat = crc.toNat % 256 := by
    rw [UInt16.toNat_and]
    exact Nat.and_two_pow_sub_one_eq_mod crc.toNat 8
  rw [← UInt8.toNat_inj, UInt16.toNat_toUInt8, UInt16.toNat_toUInt8, hand, Nat.mod_mod]

theorem word_of_bytes (crc : UInt16) :
    crc.toUInt8.toUInt16 ||| ((crc >>> 8).toUInt8.toUInt16 <<< 8) = crc := by
  rw [← UInt16.toBitVec_inj]
  apply BitVec.eq_of_getLsbD_eq
  intro i hi
  rw [getLsbD_word _ _ hi]
  by_cases hlow : i < 8
  · rw [frameBit_cons_of_lt _ _ hlow]
    simp [hlow]
  · obtain ⟨j, rfl⟩ : ∃ j, i = 8 + j := ⟨i - 8, by omega⟩
    have hj : j < 8 := by omega
    rw [frameBit_cons_add, frameBit_cons_of_lt _ _ hj]
    simp [hj]

/-- A frame as it is built passes. -/
theorem crcCheck_modbusFrame (msg : Bytes) : crcCheck (modbusFrame msg) = true := by
  rw [modbusFrame, crcCheck_append, toUInt8_and_mask, word_of_bytes]
  exact beq_self_eq_true _

/-! ## The period of the register -/

theorem crcTaps_period : (step crcTaps)^[32767] 1#16 = 1#16 := by
  rw [← jump_eq crcTaps 16]
  decide +kernel

/-- 32767 is 7 · 31 · 151, and none of the three quotients is a period. -/
theorem crcTaps_quotient {p : Nat} (hp : p.Prime) (h : p ∣ 32767) :
    (step crcTaps)^[32767 / p] 1#16 ≠ 1#16 := by
  have hprimes : p = 7 ∨ p = 31 ∨ p = 151 := by
    have hfactors : p ∣ 7 * (31 * 151) := h
    rcases hp.dvd_mul.mp hfactors with h7 | hrest
    · exact Or.inl ((Nat.prime_dvd_prime_iff_eq hp (by decide +kernel)).mp h7)
    · rcases hp.dvd_mul.mp hrest with h31 | h151
      · exact Or.inr (Or.inl ((Nat.prime_dvd_prime_iff_eq hp (by decide +kernel)).mp h31))
      · exact Or.inr (Or.inr ((Nat.prime_dvd_prime_iff_eq hp (by decide +kernel)).mp h151))
  rw [← jump_eq crcTaps 16]
  rcases hprimes with rfl | rfl | rfl
  · decide +kernel
  · decide +kernel
  · decide +kernel

theorem crcTaps_iterate_ne {d : Nat} (hd : 0 < d) (hlt : d < 32767) :
    (step crcTaps)^[d] 1#16 ≠ 1#16 :=
  iterate_ne_of_lt crcTaps_period (fun _ hp h => crcTaps_quotient hp h) hd hlt

/-! ## Detection -/

/-- The difference of two frames, as it is fed. -/
def difference (frame corrupted : Bytes) (i : Nat) : Bool :=
  frameBit frame i ^^ frameBit corrupted i

theorem difference_eq_true_iff (frame corrupted : Bytes) (i : Nat) :
    difference frame corrupted i = true ↔ frameBit frame i ≠ frameBit corrupted i := by
  simp [difference]

theorem mem_differing {frame corrupted : Bytes} {i : Nat} :
    i ∈ differing frame corrupted ↔
      i < 8 * frame.length ∧ difference frame corrupted i = true := by
  rw [differing, Finset.mem_filter, Finset.mem_range, difference_eq_true_iff]

/-- **A corrupted frame is the frame with the difference on top**: it passes the check exactly if
    the difference alone leaves the register at zero. -/
theorem crcCheck_corrupted {frame corrupted : Bytes} (h2 : 2 ≤ frame.length)
    (hlen : corrupted.length = frame.length) (hframe : crcCheck frame = true) :
    crcCheck corrupted = true ↔
      run crcTaps 1#16 0#16 (difference frame corrupted) (8 * frame.length) = 0#16 := by
  have hzero : (modbusCrc16 frame).toBitVec = 0#16 := by
    rw [(crcCheck_iff h2).mp hframe]
    rfl
  have hbits : frameBit corrupted =
      fun i => frameBit frame i ^^ difference frame corrupted i := by
    funext i
    rw [difference, ← Bool.xor_assoc, Bool.xor_self, Bool.false_xor]
  have hsum := run_xor crcTaps 1#16 0xFFFF#16 0#16 (frameBit frame)
    (difference frame corrupted) (8 * frame.length)
  rw [BitVec.xor_zero, ← hbits, ← toBitVec_modbusCrc16, hzero, BitVec.zero_xor] at hsum
  rw [crcCheck_iff (hlen ▸ h2), ← UInt16.toBitVec_inj, toBitVec_modbusCrc16, hlen, hsum]
  rfl

theorem run_difference_ne_zero_of_odd {frame corrupted : Bytes}
    (h : Odd (differing frame corrupted).card) :
    run crcTaps 1#16 0#16 (difference frame corrupted) (8 * frame.length) ≠ 0#16 := by
  apply run_ne_zero_of_odd (by decide) (by decide)
  have hset : differing frame corrupted = (Finset.range (8 * frame.length)).filter
      fun i => difference frame corrupted i = true := by
    ext i
    rw [mem_differing, Finset.mem_filter, Finset.mem_range]
  rwa [← hset]

theorem run_difference_ne_zero_of_burst {frame corrupted : Bytes} {start : Nat}
    (hne : (differing frame corrupted).Nonempty)
    (h : ∀ i ∈ differing frame corrupted, start ≤ i ∧ i < start + 16) :
    run crcTaps 1#16 0#16 (difference frame corrupted) (8 * frame.length) ≠ 0#16 := by
  obtain ⟨i, hi⟩ := hne
  rw [mem_differing] at hi
  apply run_ne_zero_of_burst crcTaps_top hi.1 hi.2
  intro j hj hdiff
  exact h j (mem_differing.mpr ⟨hj, hdiff⟩)

theorem run_difference_ne_zero_of_pair {frame corrupted : Bytes} {i j : Nat} (hij : i < j)
    (hlt : j - i < 32767) (h : differing frame corrupted = {i, j}) :
    run crcTaps 1#16 0#16 (difference frame corrupted) (8 * frame.length) ≠ 0#16 := by
  have hmem : ∀ k, k ∈ differing frame corrupted ↔ k = i ∨ k = j := by
    intro k
    rw [h, Finset.mem_insert, Finset.mem_singleton]
  have hj := (mem_differing.mp ((hmem j).mpr (Or.inr rfl))).1
  apply run_ne_zero_of_pair crcTaps_top hij hj _ (crcTaps_iterate_ne (by omega) hlt)
  intro k hk
  rw [← hmem, mem_differing, and_iff_right hk]

theorem two_le_length_modbusFrame (msg : Bytes) : 2 ≤ (modbusFrame msg).length := by
  rw [modbusFrame, List.length_append]
  exact Nat.le_add_left 2 msg.length

theorem crcCheck_eq_false_of_detectable {msg corrupted : Bytes}
    (hlen : corrupted.length = (modbusFrame msg).length)
    (h : Detectable (modbusFrame msg) corrupted) : crcCheck corrupted = false := by
  have hcheck := crcCheck_corrupted (two_le_length_modbusFrame msg) hlen (crcCheck_modbusFrame msg)
  rw [← Bool.not_eq_true, hcheck]
  cases h with
  | odd hodd => exact run_difference_ne_zero_of_odd hodd
  | burst start hne hburst => exact run_difference_ne_zero_of_burst hne hburst
  | pair i j hij hlt hpair => exact run_difference_ne_zero_of_pair hij hlt hpair

/-- **CRC16 error detection.** A frame that differs from a well-formed one of its length in one
    of the three ways fails the check, and the check on a frame of at least two bytes is that the
    checksum of all of it is zero. -/
theorem crc16_error_detection :
    (∀ msg corrupted : Bytes, corrupted.length = (modbusFrame msg).length →
      Detectable (modbusFrame msg) corrupted → crcCheck corrupted = false) ∧
    ∀ frame : Bytes, 2 ≤ frame.length → (crcCheck frame = true ↔ modbusCrc16 frame = 0) := by
  constructor
  · intro msg corrupted hlen herror
    exact crcCheck_eq_false_of_detectable hlen herror
  · intro frame h
    exact crcCheck_iff h

/-- The request of the simulated poll with two bits of its first byte changed. -/
theorem crc16_error_detection_simulateReq :
    crcCheck [0x07, 0x03, 0x00, 0x00, 0x00, 0x03, 0x05, 0xCB] = false ∧
    modbusCrc16 simulateReq = 0 := by
  have hdiff : differing (modbusFrame [0x01, 0x03, 0x00, 0x00, 0x00, 0x03])
      [0x07, 0x03, 0x00, 0x00, 0x00, 0x03, 0x05, 0xCB] = {1, 2} := by decide +kernel
  have hpair := crc16_error_detection.1 [0x01, 0x03, 0x00, 0x00, 0x00, 0x03]
    [0x07, 0x03, 0x00, 0x00, 0x00, 0x03, 0x05, 0xCB] (by decide)
    (.pair 1 2 (by decide) (by decide) hdiff)
  have hresidue := (crc16_error_detection.2 simulateReq (by decide)).mp (by decide +kernel)
  exact ⟨hpair, hresidue⟩

/-! ## The exchange -/

/-- The read loop returns `-1` or the number of bytes it has read. -/
theorem readLoop_ret (max : Nat) (events : List SerialEvent) : ∀ got,
    (readLoop max events got).1 = -1 ∨
      (readLoop max events got).1 = (readLoop max events got).2.length := by
  induction events with
  | nil =>
    intro got
    exact Or.inr rfl
  | cons ev events ih =>
    intro got
    unfold readLoop
    split
    · cases ev with
      | quiet => exact Or.inr rfl
      | error => exact Or.inl rfl
      | again => exact ih got
      | data bytes =>
        dsimp only
        split
        · exact Or.inr rfl
        · split
          · -- the five bytes are there
            right
            rw [List.length_append, List.length_take]
            omega
          · exact ih _
    · exact Or.inr rfl

section
variable (fd : Int) (request : Bytes) (response_max : Nat) (written : Int)
  (events : List SerialEvent)

/-- The ways an exchange goes: it fails, or what was read is handed on as it is. -/
theorem modbusSerialExchange_cases :
    (modbusSerialExchange fd request response_max written events).1 = -1 ∨
    (modbusSerialExchange fd request response_max written events =
        readWithTimeout response_max events ∧
      5 ≤ (readWithTimeout response_max events).1 ∧
      crcCheck (readWithTimeout response_max events).2 = true) := by
  unfold modbusSerialExchange
  split
  · exact Or.inl rfl
  · split
    · exact Or.inl rfl
    · dsimp only
      split
      · exact Or.inl rfl
      · rename_i hn
        split
        · exact Or.inl rfl
        · rename_i hcrc
          exact Or.inr ⟨rfl, by omega, by simpa using hcrc⟩

/-- **A response that is handed on is a well-formed frame**: at least five bytes, as many as the
    return value says, whose checksum comes out at zero. -/
theorem modbusSerialExchange_accepts
    (h : (modbusSerialExchange fd request response_max written events).1 ≠ -1) :
    5 ≤ (modbusSerialExchange fd request response_max written events).2.length ∧
    (modbusSerialExchange fd request response_max written events).1 =
      (modbusSerialExchange fd request response_max written events).2.length ∧
    modbusCrc16 (modbusSerialExchange fd request response_max written events).2 = 0 := by
  rcases modbusSerialExchange_cases fd request response_max written events with
    hfail | ⟨hread, hfive, hcheck⟩
  · exact absurd hfail h
  · rw [hread]
    have hcount : (readWithTimeout response_max events).1 =
        (readWithTimeout response_max events).2.length := by
      rcases readLoop_ret response_max events [] with herr | hcount
      · rw [readWithTimeout, herr] at hfive
        omega
      · exact hcount
    have hlen : 5 ≤ (readWithTimeout response_max events).2.length := by omega
    exact ⟨hlen, hcount, (crcCheck_iff (by omega)).mp hcheck⟩

/-- **A detectable error on the line is refused**: an exchange that reads a frame with one of the
    three errors fails. -/
theorem modbusSerialExchange_refuses {msg : Bytes}
    (hlen : (readWithTimeout response_max events).2.length = (modbusFrame msg).length)
    (h : Detectable (modbusFrame msg) (readWithTimeout response_max events).2) :
    (modbusSerialExchange fd request response_max written events).1 = -1 := by
  rcases modbusSerialExchange_cases fd request response_max written events with
    hfail | ⟨_, _, hcheck⟩
  · exact hfail
  · rw [crcCheck_eq_false_of_detectable hlen h] at hcheck
    cases hcheck

end

end Proof
end EdgeFlow
