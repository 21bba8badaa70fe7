import EdgeFlow.ThirdParty.Modbus
import EdgeFlow.Proof.CrcDetection

/-!
# libmodbus on the wire

The library computes its checksum from two tables, a byte at a time; the gateway's own
`modbus_crc16` shifts bits. They are the same function (`crc16_eq_modbusCrc16`), so what
`Proof/CrcDetection.lean` says of one holds of the other.

A message comes in pieces, and the receive loop reads it in steps: up to the function, what is
fixed behind it, then as many bytes as these announce. What the loop makes of a stream is a
function of the stream alone (`assemble`), however it is cut up (`receiveMsg_cases`). A reply to
a read of registers is read back from a stream as the registers in it.
-/

set_option autoImplicit false

namespace EdgeFlow
namespace Libmodbus

open Lib Proof

/-! ## The tables and the register -/

/-- The register a pair of bytes stands for. -/
def word (crc : UInt8 × UInt8) : UInt16 := crc.1.toUInt16 <<< 8 ||| crc.2.toUInt16

theorem crcBits_xor (n : Nat) (x y : UInt16) :
    crcBits n (x ^^^ y) = crcBits n x ^^^ crcBits n y := by
  rw [← UInt16.toBitVec_inj, UInt16.toBitVec_xor, toBitVec_crcBits, toBitVec_crcBits,
    toBitVec_crcBits, UInt16.toBitVec_xor, ShiftRegister.iterate_step_xor]

theorem forall_byte {P : UInt8 → Prop} (h : ∀ i : Fin 256, P (UInt8.ofNat i)) (byte : UInt8) :
    P byte := by
  have hbyte := h ⟨byte.toNat, byte.toNat_lt⟩
  rwa [UInt8.ofNat_toNat] at hbyte

/-- The tables hold what eight shifts make of a low byte. -/
theorem tables_spec (i : UInt8) :
    word (tableCrcLo.getD i.toNat 0, tableCrcHi.getD i.toNat 0) = crcBits 8 i.toUInt16 := by
  apply forall_byte _ i
  decide +kernel

/-- Eight shifts bring a high byte down. -/
theorem crcBits_high (hi : UInt8) : crcBits 8 (hi.toUInt16 <<< 8) = hi.toUInt16 := by
  apply forall_byte _ hi
  decide +kernel

/-- The two halves of a register do not overlap. -/
theorem word_xor (hi lo byte : UInt8) :
    word (hi, lo) ^^^ byte.toUInt16 = (lo ^^^ byte).toUInt16 ^^^ (hi.toUInt16 <<< 8) := by
  rw [← UInt16.toBitVec_inj]
  apply BitVec.eq_of_getLsbD_eq
  intro i h16
  by_cases hlow : i < 8
  · simp [word, hlow, h16]
  · have hout : ∀ b : UInt8, b.toBitVec.getLsbD i = false := by
      intro b
      exact BitVec.getLsbD_of_ge _ _ (by omega)
    simp [word, hlow, h16, hout]

theorem word_lookup (hi lo' hi' : UInt8) :
    word (lo', hi') ^^^ hi.toUInt16 = word (lo', hi ^^^ hi') := by
  rw [← UInt16.toBitVec_inj]
  apply BitVec.eq_of_getLsbD_eq
  intro i h16
  by_cases hlow : i < 8
  · simp [word, hlow, h16, Bool.xor_comm]
  · have hout : ∀ b : UInt8, b.toBitVec.getLsbD i = false := by
      intro b
      exact BitVec.getLsbD_of_ge _ _ (by omega)
    simp [word, hlow, h16, hout]

/-- One byte through the tables is one byte through the register. -/
theorem crcByte_word (crc : UInt8 × UInt8) (byte : UInt8) :
    crcByte (word crc) byte = word (crcLookup crc byte) := by
  obtain ⟨hi, lo⟩ := crc
  calc crcByte (word (hi, lo)) byte
      = crcBits 8 ((lo ^^^ byte).toUInt16 ^^^ (hi.toUInt16 <<< 8)) := by rw [crcByte, word_xor]
    _ = crcBits 8 (lo ^^^ byte).toUInt16 ^^^ hi.toUInt16 := by rw [crcBits_xor, crcBits_high]
    _ = word (crcLookup (hi, lo) byte) := by rw [← tables_spec, word_lookup, crcLookup]

theorem foldl_crcByte_word (buffer : Bytes) : ∀ crc : UInt8 × UInt8,
    buffer.foldl crcByte (word crc) = word (buffer.foldl crcLookup crc) := by
  induction buffer with
  | nil =>
    intro crc
    rfl
  | cons byte buffer ih =>
    intro crc
    rw [List.foldl_cons, List.foldl_cons, crcByte_word, ih]

/-- **The tables compute the checksum of the shift register**, for every message. -/
theorem crc16_eq_modbusCrc16 (buffer : Bytes) : crc16 buffer = modbusCrc16 buffer := by
  have hstart : word (0xFF, 0xFF) = 0xFFFF := by decide
  rw [modbusCrc16, ← hstart, foldl_crcByte_word]
  rfl

/-! ## A message from any pieces -/

theorem byteAt_eq_getElem {msg : Bytes} {i : Nat} (h : i < msg.length) :
    byteAt msg i = msg[i] := by
  rw [byteAt, List.getD_eq_getElem?_getD, List.getElem?_eq_getElem h, Option.getD_some]

theorem byteAt_take {stream : Bytes} {n i : Nat} (h : i < n) :
    byteAt (stream.take n) i = byteAt stream i := by
  unfold byteAt
  rw [List.getD_eq_getElem?_getD, List.getD_eq_getElem?_getD, List.getElem?_take_of_lt h]

section
variable (b : Backend)

/-- How many bytes hold the function and the meta information behind it. -/
def prefixLength (msg_type : MsgType) (stream : Bytes) : Nat :=
  b.header_length + 1 +
    computeMetaLengthAfterFunction (byteAt stream b.header_length).toNat msg_type

/-- The length of the message at the front of a stream, read off the stream itself. -/
def messageLength (msg_type : MsgType) (stream : Bytes) : Nat :=
  prefixLength b msg_type stream +
    computeDataLengthAfterMeta b (stream.take (prefixLength b msg_type stream)) msg_type

/-- What is to be received from a stream, with no regard to how it arrives. -/
def assemble (msg_type : MsgType) (stream : Bytes) : Option (Bytes × Bytes) :=
  let length := messageLength b msg_type stream
  if prefixLength b msg_type stream ≤ stream.length ∧ length ≤ b.max_adu_length ∧
      length ≤ stream.length then
    some (stream.take length, stream.drop length)
  else none

/-- A line that neither fails nor goes quiet before the stream is through. -/
def Delivers (answers : List RecvAnswer) (stream : Bytes) : Prop :=
  (∀ a ∈ answers, a ≠ .fails) ∧ stream.length < answers.length

/-- The loop from the end of a step on. -/
def afterStep (msg_type : MsgType) (answers : List RecvAnswer) (step : RecvStep)
    (msg stream : Bytes) : Option (Bytes × Bytes) :=
  match nextStep b msg_type step msg with
  | none => none
  | some (n, step) => receiveLoop b msg_type answers n step msg stream

theorem Delivers.tail {a : RecvAnswer} {answers : List RecvAnswer} {stream : Bytes}
    (h : Delivers (a :: answers) stream) {k : Nat} (hk : 0 < k) (hlen : k ≤ stream.length) :
    Delivers answers (stream.drop k) := by
  obtain ⟨hall, hmany⟩ := h
  refine ⟨fun a ha => hall a (List.mem_cons_of_mem _ ha), ?_⟩
  rw [List.length_cons] at hmany
  rw [List.length_drop]
  omega

/-- **One step of a message**: the loop fails, and on a line that delivers only because the
    stream is too short, or it has taken exactly the bytes of the step. -/
theorem receiveLoop_step (msg_type : MsgType) (answers : List RecvAnswer) :
    ∀ (left : Nat) (step : RecvStep) (msg stream : Bytes), 0 < left →
      (receiveLoop b msg_type answers left step msg stream = none ∧
        (Delivers answers stream → stream.length < left)) ∨
      (left ≤ stream.length ∧ ∃ answers',
        (Delivers answers stream → Delivers answers' (stream.drop left)) ∧
        receiveLoop b msg_type answers left step msg stream =
          afterStep b msg_type answers' step (msg ++ stream.take left) (stream.drop left)) := by
  induction answers with
  | nil =>
    intro left step msg stream hleft
    obtain ⟨left, rfl⟩ : ∃ k, left = k + 1 := ⟨left - 1, by omega⟩
    refine Or.inl ⟨rfl, ?_⟩
    intro hd
    exact absurd hd.2 (Nat.not_lt_zero _)
  | cons a answers ih =>
    intro left step msg stream hleft
    obtain ⟨left, rfl⟩ : ∃ k, left = k + 1 := ⟨left - 1, by omega⟩
    cases a with
    | fails =>
      refine Or.inl ⟨rfl, ?_⟩
      intro hd
      exact absurd rfl (hd.1 _ List.mem_cons_self)
    | ready n =>
      -- `k` bytes come: at least one if there is any, at most what the step still wants
      obtain ⟨k, hk⟩ : ∃ k, k = (stream.take (max 1 (min n (left + 1)))).length := ⟨_, rfl⟩
      have hkle : k ≤ left + 1 ∧ k ≤ stream.length := by
        rw [List.length_take] at hk
        omega
      have htake : stream.take (max 1 (min n (left + 1))) = stream.take k := by
        rw [hk, List.length_take, List.take_eq_take_min]
      by_cases hnone : stream.take (max 1 (min n (left + 1))) = []
      · have hempty : stream.length = 0 := by
          have := congrArg List.length hnone
          rw [List.length_take, List.length_nil] at this
          omega
        refine Or.inl ⟨?_, fun _ => by omega⟩
        simp only [receiveLoop]
        rw [if_pos hnone]
      · have hpos : 0 < k := by
          rw [hk]
          exact List.length_pos_iff.mpr hnone
        have hloop : receiveLoop b msg_type (.ready n :: answers) (left + 1) step msg stream =
            if left + 1 - k = 0 then
              afterStep b msg_type answers step (msg ++ stream.take k) (stream.drop k)
            else
              receiveLoop b msg_type answers (left + 1 - k) step (msg ++ stream.take k)
                (stream.drop k) := by
          simp only [receiveLoop]
          rw [if_neg hnone, ← hk, htake]
          rfl
        rw [hloop]
        by_cases hdone : left + 1 - k = 0
        · have hkall : k = left + 1 := by omega
          subst hkall
          rw [if_pos hdone]
          exact Or.inr ⟨hkle.2, answers, fun hd => hd.tail hpos hkle.2, rfl⟩
        · rw [if_neg hdone]
          have hmore : (stream.take k) ++ (stream.drop k).take (left + 1 - k) =
              stream.take (left + 1) := by
            rw [← List.take_add]
            congr 1
            omega
          have hdrop : (stream.drop k).drop (left + 1 - k) = stream.drop (left + 1) := by
            rw [List.drop_drop]
            congr 1
            omega
          have hlen : (stream.drop k).length = stream.length - k := List.length_drop
          rcases ih (left + 1 - k) step (msg ++ stream.take k) (stream.drop k) (by omega) with
            ⟨hfail, hshort⟩ | ⟨henough, answers', hd', hrun⟩
          · refine Or.inl ⟨hfail, ?_⟩
            intro hd
            have := hshort (hd.tail hpos hkle.2)
            omega
          · rw [List.append_assoc, hmore, hdrop] at hrun
            rw [hdrop] at hd'
            refine Or.inr ⟨by omega, answers', ?_, hrun⟩
            intro hd
            exact hd' (hd.tail hpos hkle.2)

/-- What receiving may come to: what the stream holds, or a failure, which a line that delivers
    has only where there is no message to be had. -/
def Receives (msg_type : MsgType) (answers : List RecvAnswer) (rest stream : Bytes)
    (result : Option (Bytes × Bytes)) : Prop :=
  (result = none ∧ (Delivers answers rest → assemble b msg_type stream = none)) ∨
    result = assemble b msg_type stream

theorem assemble_eq_none_of_short {msg_type : MsgType} {stream : Bytes}
    (h : stream.length < prefixLength b msg_type stream) : assemble b msg_type stream = none := by
  unfold assemble
  exact if_neg fun hall => absurd hall.1 (by omega)

theorem assemble_eq_some {msg_type : MsgType} {stream rsp rest : Bytes}
    (h : assemble b msg_type stream = some (rsp, rest)) :
    stream = rsp ++ rest ∧ rsp.length = messageLength b msg_type stream ∧
      rsp.length ≤ b.max_adu_length := by
  unfold assemble at h
  by_cases hall : prefixLength b msg_type stream ≤ stream.length ∧
      messageLength b msg_type stream ≤ b.max_adu_length ∧
      messageLength b msg_type stream ≤ stream.length
  · rw [if_pos hall] at h
    cases h
    have hcut := List.length_take_of_le hall.2.2
    exact ⟨(List.take_append_drop _ _).symm, hcut, by omega⟩
  · rw [if_neg hall] at h
    cases h

/-- The last step, from the end of the meta information on. -/
theorem receives_data (msg_type : MsgType) (answers : List RecvAnswer) (stream : Bytes)
    (h : prefixLength b msg_type stream ≤ stream.length) :
    Receives b msg_type answers (stream.drop (prefixLength b msg_type stream)) stream
      (afterStep b msg_type answers .metaData (stream.take (prefixLength b msg_type stream))
        (stream.drop (prefixLength b msg_type stream))) := by
  obtain ⟨p, hp⟩ : ∃ p, p = prefixLength b msg_type stream := ⟨_, rfl⟩
  obtain ⟨n, hn⟩ : ∃ n, n = computeDataLengthAfterMeta b (stream.take p) msg_type := ⟨_, rfl⟩
  have hlength : messageLength b msg_type stream = p + n := by rw [messageLength, ← hp, ← hn]
  have htaken : (stream.take p).length = p := List.length_take_of_le (by rw [hp]; exact h)
  have hassemble : assemble b msg_type stream =
      if p ≤ stream.length ∧ p + n ≤ b.max_adu_length ∧ p + n ≤ stream.length then
        some (stream.take (p + n), stream.drop (p + n)) else none := by
    unfold assemble
    rw [hlength, ← hp]
  rw [← hp] at h ⊢
  unfold Receives afterStep nextStep
  rw [hassemble, ← hn, htaken]
  by_cases hmax : b.max_adu_length < p + n
  · rw [if_pos hmax, if_neg fun hall => absurd hall.2.1 (by omega)]
    exact Or.inr rfl
  · rw [if_neg hmax]
    by_cases hn0 : n = 0
    · subst hn0
      rw [if_pos ⟨h, by omega, h⟩]
      refine Or.inr ?_
      simp only [receiveLoop, Nat.add_zero]
    · rcases receiveLoop_step b msg_type answers n .data (stream.take p) (stream.drop p)
        (by omega) with ⟨hfail, hshort⟩ | ⟨henough, answers', _, hrun⟩
      · refine Or.inl ⟨hfail, ?_⟩
        intro hd
        have hlt := hshort hd
        rw [List.length_drop] at hlt
        exact if_neg fun hall => absurd hall.2.2 (by omega)
      · rw [List.length_drop] at henough
        rw [if_pos ⟨h, by omega, by omega⟩]
        refine Or.inr (hrun.trans ?_)
        rw [← List.take_add, List.drop_drop]
        simp only [afterStep, nextStep, receiveLoop]

theorem afterStep_function_of_meta {msg_type : MsgType} {answers : List RecvAnswer}
    {msg stream : Bytes}
    (h : computeMetaLengthAfterFunction (byteAt msg b.header_length).toNat msg_type ≠ 0) :
    afterStep b msg_type answers .function msg stream =
      receiveLoop b msg_type answers
        (computeMetaLengthAfterFunction (byteAt msg b.header_length).toNat msg_type) .metaData
        msg stream := by
  unfold afterStep nextStep
  simp only [if_pos h]

theorem afterStep_function_of_no_meta {msg_type : MsgType} {answers : List RecvAnswer}
    {msg stream : Bytes}
    (h : computeMetaLengthAfterFunction (byteAt msg b.header_length).toNat msg_type = 0) :
    afterStep b msg_type answers .function msg stream =
      afterStep b msg_type answers .metaData msg stream := by
  unfold afterStep nextStep
  simp only [if_neg (not_not.mpr h)]

/-- **Receiving does not depend on how a message is cut up.** Whatever the line answers, the
    result is a failure or the message at the front of the stream; a line that delivers fails
    only where the stream holds no message. -/
theorem receiveMsg_cases (msg_type : MsgType) (answers : List RecvAnswer) (stream : Bytes) :
    Receives b msg_type answers stream stream (receiveMsg b msg_type answers stream) := by
  obtain ⟨m, hm⟩ : ∃ m, m =
      computeMetaLengthAfterFunction (byteAt stream b.header_length).toNat msg_type := ⟨_, rfl⟩
  have hp : prefixLength b msg_type stream = b.header_length + 1 + m := by rw [prefixLength, ← hm]
  rcases receiveLoop_step b msg_type answers (b.header_length + 1) .function [] stream
    (by omega) with ⟨hfail, hshort⟩ | ⟨hhead, answers', hd', hrun⟩
  · refine Or.inl ⟨hfail, ?_⟩
    intro hd
    apply assemble_eq_none_of_short
    have := hshort hd
    omega
  · have hbyte : byteAt (stream.take (b.header_length + 1)) b.header_length =
        byteAt stream b.header_length := byteAt_take (by omega)
    rw [List.nil_append] at hrun
    unfold receiveMsg
    rw [hrun]
    by_cases hm0 : m = 0
    · rw [afterStep_function_of_no_meta b (by rw [hbyte, ← hm, hm0])]
      rw [hm0, Nat.add_zero] at hp
      have hdata := receives_data b msg_type answers' stream (by omega)
      rw [hp] at hdata
      rcases hdata with ⟨hnone, hwhen⟩ | hsome
      · exact Or.inl ⟨hnone, fun hd => hwhen (hd' hd)⟩
      · exact Or.inr hsome
    · rw [afterStep_function_of_meta b (by rw [hbyte, ← hm]; exact hm0), hbyte, ← hm]
      rcases receiveLoop_step b msg_type answers' m .metaData
        (stream.take (b.header_length + 1)) (stream.drop (b.header_length + 1)) (by omega) with
        ⟨hfail, hshort⟩ | ⟨hmeta, answers'', hd'', hrun'⟩
      · refine Or.inl ⟨hfail, ?_⟩
        intro hd
        apply assemble_eq_none_of_short
        have := hshort (hd' hd)
        rw [List.length_drop] at this
        omega
      · rw [List.length_drop] at hmeta
        rw [← List.take_add, List.drop_drop, ← hp] at hrun'
        rw [List.drop_drop, ← hp] at hd''
        rw [hrun']
        rcases receives_data b msg_type answers'' stream (by omega) with ⟨hnone, hwhen⟩ | hsome
        · exact Or.inl ⟨hnone, fun hd => hwhen (hd'' (hd' hd))⟩
        · exact Or.inr hsome

theorem receiveMsg_eq_assemble {msg_type : MsgType} {answers : List RecvAnswer} {stream : Bytes}
    (h : Delivers answers stream) :
    receiveMsg b msg_type answers stream = assemble b msg_type stream := by
  rcases receiveMsg_cases b msg_type answers stream with ⟨hnone, hwhen⟩ | hsome
  · rw [hnone, hwhen h]
  · exact hsome

/-- **Segmentation.** Whatever the line answers, what is received is nothing or the message at
    the front of the stream, no longer than the back end allows; on a line that delivers it is
    that message exactly where there is one. -/
theorem receiveMsg_segmentation (msg_type : MsgType) (answers : List RecvAnswer)
    (stream : Bytes) :
    (receiveMsg b msg_type answers stream = none ∨
      receiveMsg b msg_type answers stream = assemble b msg_type stream) ∧
    (Delivers answers stream →
      receiveMsg b msg_type answers stream = assemble b msg_type stream) ∧
    ∀ rsp rest, receiveMsg b msg_type answers stream = some (rsp, rest) →
      stream = rsp ++ rest ∧ rsp.length = messageLength b msg_type stream ∧
        rsp.length ≤ b.max_adu_length := by
  refine ⟨?_, receiveMsg_eq_assemble b, ?_⟩
  · rcases receiveMsg_cases b msg_type answers stream with ⟨hnone, -⟩ | hsome
    · exact Or.inl hnone
    · exact Or.inr hsome
  · intro rsp rest h
    rcases receiveMsg_cases b msg_type answers stream with ⟨hnone, -⟩ | hsome
    · rw [hnone] at h
      cases h
    · exact assemble_eq_some b (hsome.symm.trans h)

/-- A write confirmation over a serial line, in pieces of three, with a byte of the next message
    behind it. -/
theorem receiveMsg_segmentation_write :
    receiveMsg rtu .confirmation (List.replicate 10 (.ready 3))
        [0x01, 0x06, 0x00, 0x10, 0x00, 0x64, 0x88, 0x24, 0x01] =
      some ([0x01, 0x06, 0x00, 0x10, 0x00, 0x64, 0x88, 0x24], [0x01]) := by
  have hd : Delivers (List.replicate 10 (.ready 3))
      [0x01, 0x06, 0x00, 0x10, 0x00, 0x64, 0x88, 0x24, 0x01] := by
    refine ⟨?_, by decide⟩
    intro a ha
    rw [List.eq_of_mem_replicate ha]
    exact RecvAnswer.noConfusion
  rw [(receiveMsg_segmentation rtu .confirmation _ _).2.1 hd]
  decide

/-! ## The response to a read -/

/-- A response to a read of registers: what the back end puts in front, function 3, a count and
    the registers, and what the back end puts behind. -/
structure IsReply (regs : List UInt16) (rsp : Bytes) (head tail : Bytes) : Prop where
  head_length : head.length = b.header_length
  tail_length : tail.length = b.checksum_length
  few : regs.length ≤ 125
  eq : rsp = head ++ (0x03 :: UInt8.ofNat (2 * regs.length) ::
    (regs.flatMap fun reg => be16 reg.toNat) ++ tail)

theorem length_flatMap_be16 (regs : List UInt16) :
    (regs.flatMap fun reg => be16 reg.toNat).length = 2 * regs.length := by
  induction regs with
  | nil => rfl
  | cons reg regs ih =>
    rw [List.flatMap_cons, List.length_append, ih, List.length_cons]
    simp only [be16, List.length_cons, List.length_nil]
    omega

theorem IsReply.length {regs : List UInt16} {rsp head tail : Bytes}
    (h : IsReply b regs rsp head tail) :
    rsp.length = b.header_length + 2 + 2 * regs.length + b.checksum_length := by
  rw [h.eq, List.length_append, List.length_append, List.length_cons, List.length_cons,
    length_flatMap_be16, h.head_length, h.tail_length]
  omega

theorem byteAt_append_right {a c : Bytes} {n i : Nat} (h : a.length = n) :
    byteAt (a ++ c) (n + i) = byteAt c i := by
  unfold byteAt
  rw [List.getD_eq_getElem?_getD, List.getD_eq_getElem?_getD,
    List.getElem?_append_right (by omega)]
  congr 2
  omega

/-! ### Registers and bytes -/

theorem toNat_word (hi lo : UInt8) : (word (hi, lo)).toNat = hi.toNat * 256 + lo.toNat := by
  have hhi := hi.toNat_lt
  have hlo := lo.toNat_lt
  have hshift : (hi.toUInt16 <<< 8).toNat = hi.toNat <<< 8 := by
    have height : (8 : UInt16).toNat % 16 = 8 := by decide
    rw [UInt16.toNat_shiftLeft, UInt8.toNat_toUInt16, height, Nat.shiftLeft_eq]
    exact Nat.mod_eq_of_lt (by omega)
  rw [word, UInt16.toNat_or, hshift, UInt8.toNat_toUInt16,
    ← Nat.shiftLeft_add_eq_or_of_lt (show lo.toNat < 2 ^ 8 by omega), Nat.shiftLeft_eq]

theorem be16_toNat_word (hi lo : UInt8) : be16 (word (hi, lo)).toNat = [hi, lo] := by
  have hlo := lo.toNat_lt
  have hdiv : (hi.toNat * 256 + lo.toNat) / 256 = hi.toNat := by omega
  have hmod : (hi.toNat * 256 + lo.toNat) % 256 = lo.toNat := by omega
  rw [be16, toNat_word, hdiv, hmod, UInt8.ofNat_toNat, UInt8.ofNat_toNat]

theorem word_be16 (reg : UInt16) :
    word (UInt8.ofNat (reg.toNat / 256), UInt8.ofNat (reg.toNat % 256)) = reg := by
  have hreg := reg.toNat_lt
  rw [← UInt16.toNat_inj, toNat_word, UInt8.toNat_ofNat', UInt8.toNat_ofNat']
  omega

/-- The first `n` pairs of bytes, each as a register. -/
def pairs (n : Nat) (bytes : Bytes) : List UInt16 :=
  (List.range n).map fun i => word (byteAt bytes (2 * i), byteAt bytes (2 * i + 1))

theorem pairs_succ (n : Nat) (hi lo : UInt8) (bytes : Bytes) :
    pairs (n + 1) (hi :: lo :: bytes) = word (hi, lo) :: pairs n bytes := by
  unfold pairs
  rw [List.range_succ_eq_map, List.map_cons, List.map_map]
  rfl

theorem pairs_flatMap_be16 (tail : Bytes) (regs : List UInt16) :
    pairs regs.length ((regs.flatMap fun reg => be16 reg.toNat) ++ tail) = regs := by
  induction regs with
  | nil => rfl
  | cons reg regs ih =>
    rw [List.flatMap_cons, List.length_cons, be16, List.append_assoc, List.cons_append,
      List.cons_append, List.nil_append, pairs_succ, word_be16, ih]

theorem flatMap_be16_pairs (tail : Bytes) (n : Nat) : ∀ body : Bytes, body.length = 2 * n →
    (pairs n (body ++ tail)).flatMap (fun reg => be16 reg.toNat) = body := by
  induction n with
  | zero =>
    intro body h
    rw [List.length_eq_zero_iff.mp h]
    rfl
  | succ n ih =>
    intro body h
    match body, h with
    | hi :: lo :: body, h =>
      have hrest : body.length = 2 * n := by
        rw [List.length_cons, List.length_cons] at h
        omega
      rw [List.cons_append, List.cons_append, pairs_succ, List.flatMap_cons, be16_toNat_word,
        ih body hrest]
      rfl

theorem registersOf_append {head : Bytes} (x y : UInt8) (bytes : Bytes) (n : Nat)
    (h : head.length = b.header_length) :
    registersOf b (head ++ x :: y :: bytes) n = pairs n bytes := by
  unfold registersOf pairs
  apply List.map_congr_left
  intro i _
  have hhi : b.header_length + 2 + 2 * i = b.header_length + (2 * i + 2) := by omega
  have hlo : b.header_length + 3 + 2 * i = b.header_length + (2 * i + 1 + 2) := by omega
  rw [hhi, hlo, byteAt_append_right h, byteAt_append_right h]
  rfl

/-! ### A reply on a stream -/

/-- A stream whose function is 3 is cut after as many data bytes as it announces. -/
theorem messageLength_of_read {stream : Bytes} (h : byteAt stream b.header_length = 0x03) :
    prefixLength b .confirmation stream = b.header_length + 2 ∧
      messageLength b .confirmation stream = b.header_length + 2 +
        (byteAt stream (b.header_length + 1)).toNat + b.checksum_length := by
  have hmeta : computeMetaLengthAfterFunction (byteAt stream b.header_length).toNat
      .confirmation = 1 := by
    rw [h]
    rfl
  have hp : prefixLength b .confirmation stream = b.header_length + 2 := by
    rw [prefixLength, hmeta]
  refine ⟨hp, ?_⟩
  rw [messageLength, hp, computeDataLengthAfterMeta, byteAt_take (by omega),
    byteAt_take (by omega), h]
  simp only [show (0x03 : UInt8).toNat ≤ 0x04 by decide, true_or, if_true]
  omega

theorem registersOf_of_isReply {regs : List UInt16} {rsp head tail : Bytes}
    (h : IsReply b regs rsp head tail) : registersOf b rsp regs.length = regs := by
  rw [h.eq, List.cons_append, List.cons_append, registersOf_append b _ _ _ _ h.head_length,
    pairs_flatMap_be16]

theorem assemble_of_isReply {regs : List UInt16} {rsp head tail : Bytes}
    (h : IsReply b regs rsp head tail) (rest : Bytes)
    (hmax : b.header_length + 252 + b.checksum_length ≤ b.max_adu_length) :
    assemble b .confirmation (rsp ++ rest) = some (rsp, rest) := by
  have hfew := h.few
  have hlen := h.length
  have hfun : byteAt (rsp ++ rest) b.header_length = 0x03 := by
    rw [h.eq, List.append_assoc]
    exact byteAt_append_right (i := 0) h.head_length
  have hcount : (byteAt (rsp ++ rest) (b.header_length + 1)).toNat = 2 * regs.length := by
    rw [h.eq, List.append_assoc, byteAt_append_right (i := 1) h.head_length]
    exact (UInt8.toNat_ofNat').trans (Nat.mod_eq_of_lt (by omega))
  obtain ⟨hp, hm⟩ := messageLength_of_read b hfun
  rw [hcount, ← hlen] at hm
  unfold assemble
  rw [hp, hm,
    if_pos ⟨by rw [List.length_append]; omega, by omega, by rw [List.length_append]; omega⟩,
    List.take_left, List.drop_left]

theorem split_message {rsp : Bytes} {h n m : Nat} (hlen : rsp.length = h + 2 + n + m) :
    ∃ head body tail, head.length = h ∧ body.length = n ∧ tail.length = m ∧
      rsp = head ++ (byteAt rsp h :: byteAt rsp (h + 1) :: (body ++ tail)) := by
  refine ⟨rsp.take h, (rsp.drop (h + 2)).take n, (rsp.drop (h + 2)).drop n, ?_, ?_, ?_, ?_⟩
  · rw [List.length_take]
    omega
  · rw [List.length_take, List.length_drop]
    omega
  · rw [List.length_drop, List.length_drop]
    omega
  · have hfirst : byteAt rsp h = rsp[h] := byteAt_eq_getElem _
    have hsecond : byteAt rsp (h + 1) = rsp[h + 1] := byteAt_eq_getElem _
    rw [List.take_append_drop, hfirst, hsecond, ← List.drop_eq_getElem_cons,
      ← List.drop_eq_getElem_cons, List.take_append_drop]

/-- A message with function 3 of the length of a reply with `nb` registers is one. -/
theorem isReply_of_assemble {stream rsp rest : Bytes} {nb : Nat} (hnb : nb ≤ 125)
    (h : assemble b .confirmation stream = some (rsp, rest))
    (hfun : byteAt rsp b.header_length = 0x03)
    (hlen : rsp.length = b.header_length + 2 + 2 * nb + b.checksum_length) :
    stream = rsp ++ rest ∧ (registersOf b rsp nb).length = nb ∧
      ∃ head tail, IsReply b (registersOf b rsp nb) rsp head tail := by
  obtain ⟨hstream, hmessage, -⟩ := assemble_eq_some b h
  have hin : ∀ i, i < rsp.length → byteAt stream i = byteAt rsp i := by
    intro i hi
    have htake : stream.take rsp.length = rsp := by rw [hstream, List.take_left]
    exact (byteAt_take hi).symm.trans (by rw [htake])
  rw [(messageLength_of_read b (by rw [hin _ (by omega), hfun])).2, hin _ (by omega)] at hmessage
  -- the announced count is what the length leaves for it
  have hcount : byteAt rsp (b.header_length + 1) = UInt8.ofNat (2 * nb) := by
    rw [← UInt8.toNat_inj, UInt8.toNat_ofNat', Nat.mod_eq_of_lt (by omega)]
    omega
  have hregs : (registersOf b rsp nb).length = nb := by simp [registersOf]
  obtain ⟨head, body, tail, hhead, hbody, htail, hsplit⟩ := split_message hlen
  have hpairs : registersOf b rsp nb = pairs nb (body ++ tail) := by
    rw [hsplit, registersOf_append b _ _ _ _ hhead]
  refine ⟨hstream, hregs, head, tail, hhead, htail, by omega, ?_⟩
  rw [hregs, hpairs, flatMap_be16_pairs tail nb body hbody, List.cons_append, List.cons_append,
    ← hfun, ← hcount]
  exact hsplit

end

end Libmodbus
end EdgeFlow
