import EdgeFlow.Ingress.ModbusLine
import EdgeFlow.Proof.ModbusWire

/-!
# What a read of registers lets through

`modbus_read_registers` over any back end that keeps to `Lawful`, then over the two there are.
On a serial line the only message that becomes registers is the reply a slave would compute, byte
for byte; over TCP the transaction and the protocol are compared and the length and the unit are
not looked at. From there to the poll: what the gateway puts into its telemetry is a tenth of the
registers of such a message, or nothing.
-/

set_option autoImplicit false

namespace EdgeFlow
namespace Libmodbus

open Lib Proof

section
variable (b : Backend)

/-! ## A read, over any back end -/

/-- What a read needs of a back end with this slave: a request with the function and the number
    of registers where the library looks for them, an integrity check that answers a length or
    nothing good, and room for the longest reply. -/
structure Lawful (slave : Int) : Prop where
  request : ∀ (t_id : UInt16) (addr nb : Nat), nb ≤ 125 → ∃ basis,
    b.build_request_basis slave t_id 0x03 addr nb = some basis ∧
      byteAt (b.send_msg_pre basis) b.header_length = 0x03 ∧
      wordAt (b.send_msg_pre basis) (b.header_length + 3) = nb ∧
      b.send_msg_pre basis ≠ []
  integrity : ∀ msg, b.check_integrity slave msg = msg.length ∨ b.check_integrity slave msg ≤ 0
  room : b.header_length + 252 + b.checksum_length ≤ b.max_adu_length

/-- The request a read sends. -/
def requestOf (ctx : Ctx) (addr nb : Nat) : Bytes :=
  match b.build_request_basis ctx.slave (ctx.t_id + 1) 0x03 addr nb with
  | none => []
  | some basis => b.send_msg_pre basis

theorem computeResponseLength_of_read {req : Bytes} {nb : Nat}
    (hfun : byteAt req b.header_length = 0x03) (hnb : wordAt req (b.header_length + 3) = nb) :
    computeResponseLengthFromRequest b req =
      some (b.header_length + (2 + 2 * nb) + b.checksum_length) := by
  simp only [computeResponseLengthFromRequest, hfun, hnb]
  rfl

/-- What the confirmation of a read comes down to. -/
theorem checkConfirmation_of_read {req : Bytes} {nb : Nat}
    (hfun : byteAt req b.header_length = 0x03) (hnb : wordAt req (b.header_length + 3) = nb)
    (rsp : Bytes) (rsp_length : Int) :
    checkConfirmation b req rsp rsp_length =
      if b.pre_check_confirmation req rsp = true ∧ byteAt rsp b.header_length = 0x03 ∧
          rsp_length = (b.header_length + (2 + 2 * nb) + b.checksum_length : Nat) ∧
          (byteAt rsp (b.header_length + 1)).toNat / 2 = nb then (nb : Int)
      else -1 := by
  by_cases hpre : b.pre_check_confirmation req rsp = true
  case neg => simp [checkConfirmation, hpre]
  by_cases hf : byteAt rsp b.header_length = 0x03
  case neg => simp [checkConfirmation, hf, hfun]
  have hvalues : confirmedValues b req rsp =
      (nb, (byteAt rsp (b.header_length + 1)).toNat / 2, true, true) := by
    simp only [confirmedValues, hf, hnb]
    rfl
  simp only [checkConfirmation, computeResponseLength_of_read b hfun hnb, hvalues, hf, hfun, hpre,
    show ¬ (0x80 : UInt8) ≤ 0x03 by decide, if_false, Option.map_some, Option.some.injEq,
    Int.ofNat_eq_natCast, Bool.not_true, Bool.false_eq_true, reduceCtorEq, false_or, ne_eq,
    not_true_eq_false, and_true, true_and]
  by_cases hlen : ((b.header_length + (2 + 2 * nb) + b.checksum_length : Nat) : Int) = rsp_length
  case neg => rw [if_neg hlen, if_neg fun h => hlen h.1.symm]
  rw [if_pos hlen]
  by_cases hval : nb = (byteAt rsp (b.header_length + 1)).toNat / 2
  · rw [if_pos hval, if_pos ⟨hlen.symm, hval.symm⟩, ← hval]
  · rw [if_neg hval, if_neg fun h => hval h.2.symm]

section
variable {b} (ctx : Ctx) (hb : Lawful b ctx.slave) {nb : Nat} (hnb : nb ≤ 125) (addr : Nat)
  (sent : Bytes → Int) (answers : List RecvAnswer) (stream : Bytes)

include hb hnb in
theorem requestOf_spec : ∃ basis,
    b.build_request_basis ctx.slave (ctx.t_id + 1) 0x03 addr nb = some basis ∧
      requestOf b ctx addr nb = b.send_msg_pre basis ∧
      byteAt (requestOf b ctx addr nb) b.header_length = 0x03 ∧
      wordAt (requestOf b ctx addr nb) (b.header_length + 3) = nb ∧
      requestOf b ctx addr nb ≠ [] := by
  obtain ⟨basis, hbasis, hfun, hcount, hne⟩ := hb.request (ctx.t_id + 1) addr nb hnb
  have hreq : requestOf b ctx addr nb = b.send_msg_pre basis := by
    unfold requestOf
    rw [hbasis]
  exact ⟨basis, hbasis, hreq, by rwa [hreq], by rwa [hreq], by rwa [hreq]⟩

/-- A message that is the answer to the read at hand, whose registers are `regs`. -/
structure Answers (b : Backend) (ctx : Ctx) (addr : Nat) (regs : List UInt16) (rsp : Bytes) :
    Prop where
  reply : ∃ head tail, IsReply b regs rsp head tail
  intact : b.check_integrity ctx.slave rsp = rsp.length
  ours : b.pre_check_confirmation (requestOf b ctx addr regs.length) rsp = true

/-- The end of a read, from the received message on. -/
def concludes (b : Backend) (ctx : Ctx) (req rsp : Bytes) : ReadResult :=
  let rsp_length := b.check_integrity ctx.slave rsp
  if rsp_length = -1 then .returns (-1) []
  else
    let rc := checkConfirmation b req rsp rsp_length
    if rc = -1 then .returns (-1) [] else .returns rc (registersOf b rsp rc.toNat)

include hb hnb in
/-- A read as its three ways to end: no request out, no message in, or a message concluded on. -/
theorem modbusReadRegisters_eq :
    modbusReadRegisters b ctx addr nb sent answers stream =
      (if sent (requestOf b ctx addr nb) ≤ 0 then
        .returns (sent (requestOf b ctx addr nb)) []
      else if sent (requestOf b ctx addr nb) ≠ (requestOf b ctx addr nb).length then
        .returns (-1) []
      else ((receiveMsg b .confirmation answers stream).map
        fun r => concludes b ctx (requestOf b ctx addr nb) r.1).getD (.returns (-1) [])) := by
  obtain ⟨basis, hbasis, hreq, -⟩ := requestOf_spec ctx hb hnb addr
  unfold modbusReadRegisters
  rw [if_neg (by omega), hbasis]
  simp only [← hreq]
  by_cases hpos : 0 < sent (requestOf b ctx addr nb)
  · rw [if_neg (show ¬ sent (requestOf b ctx addr nb) ≤ 0 by omega), if_pos hpos]
    by_cases hfull : sent (requestOf b ctx addr nb) = (requestOf b ctx addr nb).length
    · rw [if_neg (fun h => h.2 hfull), if_neg (not_not.mpr hfull)]
      cases receiveMsg b .confirmation answers stream with
      | none => rfl
      | some r => rfl
    · rw [if_pos ⟨hpos, hfull⟩, if_pos hfull]
  · rw [if_neg fun h => hpos h.1, if_neg hpos, if_pos (by omega)]

theorem concludes_eq {req : Bytes} (hfun : byteAt req b.header_length = 0x03)
    (hcount : wordAt req (b.header_length + 3) = nb) (rsp : Bytes) :
    concludes b ctx req rsp =
      if b.pre_check_confirmation req rsp = true ∧ byteAt rsp b.header_length = 0x03 ∧
          b.check_integrity ctx.slave rsp =
            (b.header_length + (2 + 2 * nb) + b.checksum_length : Nat) ∧
          (byteAt rsp (b.header_length + 1)).toNat / 2 = nb then
        .returns nb (registersOf b rsp nb)
      else .returns (-1) [] := by
  unfold concludes
  simp only [checkConfirmation_of_read b hfun hcount]
  split
  case isTrue hbad =>
    rw [if_neg]
    intro h
    omega
  case isFalse =>
    split
    case isTrue => rw [if_neg (by omega), Int.toNat_natCast]
    case isFalse => rw [if_pos rfl]

theorem concludes_returns (b : Backend) (ctx : Ctx) (req rsp : Bytes) :
    ∃ rc dest, concludes b ctx req rsp = .returns rc dest := by
  unfold concludes
  dsimp only
  split_ifs
  · exact ⟨_, _, rfl⟩
  · exact ⟨_, _, rfl⟩
  · exact ⟨_, _, rfl⟩

include hb hnb in
/-- **A read under a lawful slave returns**: no assertion is in its way. -/
theorem read_returns :
    ∃ rc dest, modbusReadRegisters b ctx addr nb sent answers stream = .returns rc dest := by
  rw [modbusReadRegisters_eq ctx hb hnb]
  split_ifs
  · exact ⟨_, _, rfl⟩
  · exact ⟨_, _, rfl⟩
  · cases receiveMsg b .confirmation answers stream with
    | none => exact ⟨_, _, rfl⟩
    | some r => exact concludes_returns b ctx _ r.1

include hb hnb in
/-- **Whatever the line does**, a read that returns registers returns as many as were asked for,
    those of a message that is the answer to its request. -/
theorem answers_of_read {rc : Int} {dest : List UInt16}
    (h : modbusReadRegisters b ctx addr nb sent answers stream = .returns rc dest) (hrc : 0 < rc) :
    rc = nb ∧ dest.length = nb ∧ ∃ rsp rest, stream = rsp ++ rest ∧
      Answers b ctx addr dest rsp := by
  obtain ⟨-, -, -, hfun, hcount, -⟩ := requestOf_spec ctx hb hnb addr
  rw [modbusReadRegisters_eq ctx hb hnb] at h
  split at h
  case isTrue hle =>
    cases h
    omega
  split at h
  case isTrue =>
    cases h
    omega
  cases hrecv : receiveMsg b .confirmation answers stream with
  | none =>
    rw [hrecv] at h
    cases h
    omega
  | some r =>
    obtain ⟨rsp, rest⟩ := r
    have hassemble : assemble b .confirmation stream = some (rsp, rest) := by
      rcases receiveMsg_cases b .confirmation answers stream with ⟨hnone, -⟩ | hsome
      · rw [hrecv] at hnone
        cases hnone
      · rw [← hsome, hrecv]
    rw [hrecv, Option.map_some, Option.getD_some] at h
    dsimp only at h
    rw [concludes_eq ctx hfun hcount] at h
    split at h
    case isFalse =>
      cases h
      omega
    case isTrue hall =>
      cases h
      obtain ⟨hours, hthree, hlength, -⟩ := hall
      have hintact : b.check_integrity ctx.slave rsp = rsp.length := by
        rcases hb.integrity rsp with hint | hint
        · exact hint
        · omega
      obtain ⟨hstream, hregs, hreply⟩ := isReply_of_assemble b hnb hassemble hthree (by omega)
      exact ⟨rfl, hregs, rsp, rest, hstream, hreply, hintact, by rwa [hregs]⟩

include hb hnb in
/-- A read of some registers returns nothing only when `send` has written nothing. -/
theorem read_ne_zero (h0 : 0 < nb) (hsent : ∀ req, req ≠ [] → sent req ≠ 0) {rc : Int}
    {dest : List UInt16}
    (h : modbusReadRegisters b ctx addr nb sent answers stream = .returns rc dest) : rc ≠ 0 := by
  obtain ⟨-, -, -, hfun, hcount, hreq⟩ := requestOf_spec ctx hb hnb addr
  have hne := hsent (requestOf b ctx addr nb) hreq
  rw [modbusReadRegisters_eq ctx hb hnb] at h
  split at h
  case isTrue =>
    cases h
    exact hne
  split at h
  case isTrue =>
    cases h
    decide
  cases hrecv : receiveMsg b .confirmation answers stream with
  | none =>
    rw [hrecv] at h
    cases h
    decide
  | some r =>
    rw [hrecv, Option.map_some, Option.getD_some, concludes_eq ctx hfun hcount] at h
    split at h
    · cases h
      omega
    · cases h
      decide

include hb in
/-- On a line that takes the request and delivers, the answer to it is what the read returns. -/
theorem read_of_answers {regs : List UInt16} {rsp rest : Bytes}
    (h : Answers b ctx addr regs rsp) (hstream : stream = rsp ++ rest)
    (hsent : ∀ req, sent req = req.length) (hd : Delivers answers stream) :
    modbusReadRegisters b ctx addr regs.length sent answers stream =
      .returns regs.length regs := by
  obtain ⟨⟨head, tail, hreply⟩, hintact, hours⟩ := h
  have hlen := hreply.length
  have hfew := hreply.few
  obtain ⟨-, -, -, hfun, hcount, hne⟩ := requestOf_spec ctx hb hfew addr
  have hpos := List.length_pos_iff.mpr hne
  have hthree : byteAt rsp b.header_length = 0x03 := by
    rw [hreply.eq]
    exact byteAt_append_right (i := 0) hreply.head_length
  have hbyte : (byteAt rsp (b.header_length + 1)).toNat = 2 * regs.length := by
    rw [hreply.eq, byteAt_append_right (i := 1) hreply.head_length]
    exact (UInt8.toNat_ofNat').trans (Nat.mod_eq_of_lt (by omega))
  rw [modbusReadRegisters_eq ctx hb hfew, hsent, if_neg (by omega), if_neg (not_not.mpr rfl),
    receiveMsg_eq_assemble b hd, hstream, assemble_of_isReply b hreply rest hb.room,
    Option.map_some, Option.getD_some]
  dsimp only
  rw [concludes_eq ctx hfun hcount, registersOf_of_isReply b hreply]
  exact if_pos ⟨hours, hthree, by rw [hintact, hlen]; omega, by omega⟩

end

end

/-! ## The serial line -/

theorem toUInt8_word (hi lo : UInt8) : (word (hi, lo) &&& 0x00FF).toUInt8 = lo := by
  have hlo := lo.toNat_lt
  rw [toUInt8_and_mask, ← UInt8.toNat_inj, UInt16.toNat_toUInt8, toNat_word]
  omega

theorem toUInt8_word_shift (hi lo : UInt8) : (word (hi, lo) >>> 8).toUInt8 = hi := by
  have hhi := hi.toNat_lt
  have hlo := lo.toNat_lt
  have height : (8 : UInt16).toNat % 16 = 8 := by decide
  rw [← UInt8.toNat_inj, UInt16.toNat_toUInt8, UInt16.toNat_shiftRight, height, toNat_word,
    Nat.shiftRight_eq_div_pow]
  omega

theorem word_toUInt8 (crc : UInt16) :
    word ((crc >>> 8).toUInt8, (crc &&& 0x00FF).toUInt8) = crc := by
  rw [word, UInt16.or_comm, toUInt8_and_mask, word_of_bytes]

/-- A message checks out when it is for this slave or a broadcast and its checksum is right. -/
theorem check_integrity_rtu (slave : Int) (msg : Bytes) (lo hi : UInt8) :
    rtu.check_integrity slave (msg ++ [lo, hi]) =
      if (byteAt (msg ++ [lo, hi]) 0).toNat ≠ slave ∧ byteAt (msg ++ [lo, hi]) 0 ≠ 0 then 0
      else if crc16 msg = word (hi, lo) then ((msg ++ [lo, hi]).length : Int) else -1 := by
  have hlen : (msg ++ [lo, hi]).length = msg.length + 2 := by simp
  have hlo : byteAt (msg ++ [lo, hi]) (msg.length + 2 - 2) = lo := by simp [byteAt]
  have hhi : byteAt (msg ++ [lo, hi]) (msg.length + 2 - 1) = hi := by simp [byteAt]
  have htake : (msg ++ [lo, hi]).take (msg.length + 2 - 2) = msg := by
    rw [Nat.add_sub_cancel, List.take_left]
  simp only [rtu, hlen, hlo, hhi, htake]
  rfl

theorem toNat_ofNat_halves {nb : Nat} (h : nb < 65536) :
    (UInt8.ofNat (nb / 256)).toNat * 256 + (UInt8.ofNat (nb % 256)).toNat = nb := by
  rw [UInt8.toNat_ofNat', UInt8.toNat_ofNat']
  omega

theorem lawful_rtu {slave : Int} (h : 0 ≤ slave ∧ slave ≤ 247) : Lawful rtu slave where
  request t_id addr nb hnb := by
    refine ⟨[UInt8.ofNat slave.toNat, 0x03] ++ be16 addr ++ be16 nb, ?_, rfl, ?_, ?_⟩
    · exact if_neg (by omega)
    · exact toNat_ofNat_halves (by omega)
    · exact List.cons_ne_nil _ _
  integrity msg := by
    simp only [rtu]
    split
    · exact Or.inr le_rfl
    · split
      · exact Or.inl rfl
      · exact Or.inr (by decide)
  room := by decide

/-- The reply without its checksum. -/
def rtuReplyMsg (slave : UInt8) (regs : List UInt16) : Bytes :=
  [slave, 0x03] ++ UInt8.ofNat (2 * regs.length) :: regs.flatMap fun reg => be16 reg.toNat

theorem readReply_rtu (slave : UInt8) (t_id : UInt16) (regs : List UInt16) :
    readReply rtu ⟨slave, 0x03, t_id⟩ regs = modbusFrame (rtuReplyMsg slave regs) := by
  rw [modbusFrame, ← crc16_eq_modbusCrc16]
  rfl

theorem length_rtuReply (slave : UInt8) (regs : List UInt16) :
    (modbusFrame (rtuReplyMsg slave regs)).length = 5 + 2 * regs.length := by
  simp only [modbusFrame, rtuReplyMsg, List.length_append, List.length_cons, List.length_nil,
    length_flatMap_be16]
  omega

theorem pre_check_rtu_iff (ctx : Ctx) (h : 0 ≤ ctx.slave) (addr nb : Nat) (rsp : Bytes) :
    rtu.pre_check_confirmation (requestOf rtu ctx addr nb) rsp = true ↔
      UInt8.ofNat ctx.slave.toNat = byteAt rsp 0 ∨ UInt8.ofNat ctx.slave.toNat = 0 := by
  have hreq : byteAt (requestOf rtu ctx addr nb) 0 = UInt8.ofNat ctx.slave.toNat := by
    simp only [requestOf, rtu]
    rw [if_neg (by omega)]
    rfl
  have hpre : rtu.pre_check_confirmation (requestOf rtu ctx addr nb) rsp =
      !(byteAt (requestOf rtu ctx addr nb) 0 != byteAt rsp 0 &&
        byteAt (requestOf rtu ctx addr nb) 0 != 0) := rfl
  rw [hpre, hreq]
  simp

/-- **The serial line takes nothing but the reply itself**: the slave's number, the function, the
    count, the registers and the checksum a slave would compute. -/
theorem answers_rtu_iff {ctx : Ctx} (h : 0 ≤ ctx.slave ∧ ctx.slave ≤ 247) (addr : Nat)
    (t_id : UInt16) (regs : List UInt16) (rsp : Bytes) :
    Answers rtu ctx addr regs rsp ↔ regs.length ≤ 125 ∧
      rsp = readReply rtu ⟨UInt8.ofNat ctx.slave.toNat, 0x03, t_id⟩ regs := by
  have hslave : (UInt8.ofNat ctx.slave.toNat).toNat = ctx.slave.toNat := by
    rw [UInt8.toNat_ofNat']
    omega
  constructor
  · rintro ⟨⟨head, tail, hreply⟩, hintact, hours⟩
    obtain ⟨x, rfl⟩ := List.length_eq_one_iff.mp hreply.head_length
    obtain ⟨lo, hi, rfl⟩ := List.length_eq_two.mp hreply.tail_length
    have hrsp : rsp = rtuReplyMsg x regs ++ [lo, hi] := hreply.eq
    have hlen : 0 < (rtuReplyMsg x regs ++ [lo, hi]).length := by simp
    subst hrsp
    rw [pre_check_rtu_iff ctx h.1] at hours
    rw [check_integrity_rtu] at hintact
    split at hintact
    case isTrue => omega
    case isFalse hfor =>
      split at hintact
      case isFalse => omega
      case isTrue hcrc =>
        have hx : UInt8.ofNat ctx.slave.toNat = x := by
          have hbyte : byteAt (rtuReplyMsg x regs ++ [lo, hi]) 0 = x := rfl
          rw [hbyte] at hours hfor
          rcases hours with heq | hzero
          · exact heq
          -- slave 0 is the broadcast address itself
          · have : ctx.slave.toNat = 0 := by rw [← hslave, hzero]; rfl
            by_cases hx0 : x = 0
            · rw [hzero, hx0]
            · refine absurd ⟨?_, hx0⟩ hfor
              intro heq
              apply hx0
              rw [← UInt8.toNat_inj]
              simp only [UInt8.toNat_zero]
              omega
        refine ⟨hreply.few, ?_⟩
        rw [hx, readReply_rtu, modbusFrame, ← crc16_eq_modbusCrc16, hcrc, toUInt8_word_shift]
        exact congrArg (fun y => rtuReplyMsg x regs ++ [y, hi]) (toUInt8_word hi lo).symm
  · rintro ⟨hfew, rfl⟩
    refine ⟨⟨[UInt8.ofNat ctx.slave.toNat], _, rfl, ?_, hfew, rfl⟩, ?_, ?_⟩
    · rfl
    · rw [readReply_rtu, modbusFrame, ← crc16_eq_modbusCrc16, check_integrity_rtu]
      rw [if_neg, if_pos (word_toUInt8 _).symm]
      rintro ⟨hne, -⟩
      apply hne
      show ((UInt8.ofNat ctx.slave.toNat).toNat : Int) = ctx.slave
      omega
    · rw [pre_check_rtu_iff ctx h.1]
      exact Or.inl rfl

/-! ## TCP -/

theorem lawful_tcp (slave : Int) : Lawful tcp slave where
  request t_id addr nb hnb := by
    refine ⟨_, rfl, rfl, ?_, ?_⟩
    · exact toNat_ofNat_halves (by omega)
    · exact List.cons_ne_nil _ _
  integrity msg := Or.inl rfl
  room := by decide

/-- A response over TCP, with the length and the unit it comes with. -/
def tcpReply (t_id : UInt16) (length : UInt8 × UInt8) (unit : UInt8) (regs : List UInt16) : Bytes :=
  be16 t_id.toNat ++ [0, 0, length.1, length.2, unit] ++
    (0x03 :: UInt8.ofNat (2 * regs.length) :: regs.flatMap fun reg => be16 reg.toNat)

theorem pre_check_tcp_iff (ctx : Ctx) (addr nb : Nat) (rsp : Bytes) :
    tcp.pre_check_confirmation (requestOf tcp ctx addr nb) rsp = true ↔
      be16 (ctx.t_id + 1).toNat = [byteAt rsp 0, byteAt rsp 1] ∧
        byteAt rsp 2 = 0 ∧ byteAt rsp 3 = 0 := by
  have hreq : [byteAt (requestOf tcp ctx addr nb) 0, byteAt (requestOf tcp ctx addr nb) 1] =
      be16 (ctx.t_id + 1).toNat := rfl
  have hpre : tcp.pre_check_confirmation (requestOf tcp ctx addr nb) rsp =
      (!(byteAt (requestOf tcp ctx addr nb) 0 != byteAt rsp 0 ||
        byteAt (requestOf tcp ctx addr nb) 1 != byteAt rsp 1) &&
        byteAt rsp 2 == 0 && byteAt rsp 3 == 0) := rfl
  rw [hpre, ← hreq]
  simp only [Bool.not_or, Bool.and_eq_true, Bool.not_eq_true', bne_eq_false_iff_eq, beq_iff_eq,
    List.cons.injEq, and_true]
  exact and_assoc

/-- **TCP takes a reply that carries the number of the transaction**, whatever length and unit it
    states. -/
theorem answers_tcp_iff (ctx : Ctx) (addr : Nat) (regs : List UInt16) (rsp : Bytes) :
    Answers tcp ctx addr regs rsp ↔ regs.length ≤ 125 ∧
      ∃ length unit, rsp = tcpReply (ctx.t_id + 1) length unit regs := by
  constructor
  · rintro ⟨⟨head, tail, hreply⟩, -, hours⟩
    refine ⟨hreply.few, ?_⟩
    have htail : tail = [] := List.length_eq_zero_iff.mp hreply.tail_length
    have hhead : head.length = 7 := hreply.head_length
    match head, hhead with
    | [t0, t1, p0, p1, l0, l1, unit], _ =>
      have hrsp := hreply.eq
      rw [htail, List.append_nil] at hrsp
      rw [pre_check_tcp_iff, hrsp] at hours
      obtain ⟨ht, hp0, hp1⟩ := hours
      obtain rfl : p0 = 0 := hp0
      obtain rfl : p1 = 0 := hp1
      refine ⟨(l0, l1), unit, ?_⟩
      rw [hrsp, tcpReply, ht]
      rfl
  · rintro ⟨hfew, length, unit, rfl⟩
    refine ⟨⟨be16 (ctx.t_id + 1).toNat ++ [0, 0, length.1, length.2, unit], [], rfl, rfl, hfew,
      ?_⟩, rfl, ?_⟩
    · rw [tcpReply, List.append_nil]
    · rw [pre_check_tcp_iff]
      exact ⟨rfl, rfl, rfl⟩

/-! ## From the line to the telemetry -/

section
variable {V : Type}

/-- The messages that answer the read of a poll with the registers `regs`. -/
def Genuine (cfg : GatewayConfig V) (t_id : UInt16) (regs : List UInt16) (rsp : Bytes) : Prop :=
  if cfg.modbus_transport.bytes = ascii "tcp" then
    ∃ length unit, rsp = tcpReply (t_id + 1) length unit regs
  else
    cfg.modbus_slave_id ≤ 247 ∧ rsp = modbusFrame (rtuReplyMsg cfg.modbus_slave_id regs)

theorem length_three {regs : List UInt16} (h : regs.length = 3) :
    regs = [regs.getD 0 0, regs.getD 1 0, regs.getD 2 0] := by
  match regs, h with
  | [r0, r1, r2], _ => rfl

/-- The context of a poll over a serial line has a slave only when it was given a valid one. -/
theorem pollRead_rtu_aborted {cfg : GatewayConfig V} (ht : cfg.modbus_transport.bytes ≠ ascii "tcp")
    (h : ¬ cfg.modbus_slave_id ≤ 247) (t_id : UInt16) (line : Line) :
    pollRead cfg t_id line = .aborted := by
  have hbig : 247 < cfg.modbus_slave_id.toNat := by
    rw [UInt8.le_iff_toNat_le] at h
    simpa using h
  have hslave : contextSlave cfg = -1 := by
    simp only [contextSlave, backendOf, initialSlave, if_neg ht, rtu]
    rw [if_neg (by omega), Option.getD_none]
  simp only [pollRead, pollCtx, hslave, backendOf, if_neg ht, modbusReadRegisters, rtu]
  rfl

theorem contextSlave_rtu {cfg : GatewayConfig V} (ht : cfg.modbus_transport.bytes ≠ ascii "tcp")
    (h : cfg.modbus_slave_id ≤ 247) : contextSlave cfg = cfg.modbus_slave_id.toNat := by
  have hsmall : cfg.modbus_slave_id.toNat ≤ 247 := by
    rw [UInt8.le_iff_toNat_le] at h
    simpa using h
  simp only [contextSlave, backendOf, if_neg ht, rtu]
  rw [if_pos ⟨by omega, by omega⟩, Option.getD_some]

/-- Either the read is an assertion away from the end of the process, or the back end is lawful
    and its answers are the genuine ones. -/
theorem pollRead_cases (cfg : GatewayConfig V) (t_id : UInt16) :
    ((∀ line, pollRead cfg t_id line = .aborted) ∧ ∀ regs rsp, ¬ Genuine cfg t_id regs rsp) ∨
    (Lawful (backendOf cfg) (contextSlave cfg) ∧ ∀ regs rsp, regs.length ≤ 125 →
      (Answers (backendOf cfg) (pollCtx cfg t_id) 0 regs rsp ↔ Genuine cfg t_id regs rsp)) := by
  by_cases ht : cfg.modbus_transport.bytes = ascii "tcp"
  · refine Or.inr ⟨?_, ?_⟩
    · rw [backendOf, if_pos ht]
      exact lawful_tcp _
    · intro regs rsp hfew
      rw [backendOf, if_pos ht, answers_tcp_iff, Genuine, if_pos ht]
      exact and_iff_right hfew
  · by_cases hid : cfg.modbus_slave_id ≤ 247
    · have hslave := contextSlave_rtu ht hid
      have hbound : 0 ≤ contextSlave cfg ∧ contextSlave cfg ≤ 247 := by
        rw [UInt8.le_iff_toNat_le] at hid
        rw [hslave]
        exact ⟨Int.natCast_nonneg _, by exact_mod_cast hid⟩
      refine Or.inr ⟨?_, ?_⟩
      · rw [backendOf, if_neg ht]
        exact lawful_rtu hbound
      · intro regs rsp hfew
        rw [backendOf, if_neg ht, answers_rtu_iff hbound 0 0, readReply_rtu, Genuine, if_neg ht]
        simp only [pollCtx, hslave, Int.toNat_natCast, UInt8.ofNat_toNat]
        exact ⟨fun h => ⟨hid, h.2⟩, fun h => ⟨hfew, h.2⟩⟩
    · refine Or.inl ⟨pollRead_rtu_aborted ht hid t_id, ?_⟩
      intro regs rsp h
      rw [Genuine, if_neg ht] at h
      exact hid h.1

/-- The read of a poll returns, over TCP always and on a serial line with a valid slave. -/
theorem pollRead_returns {cfg : GatewayConfig V} (h : cfg.modbus_slave_id ≤ 247) (t_id : UInt16)
    (line : Line) : ∃ rc dest, pollRead cfg t_id line = .returns rc dest := by
  have hb : Lawful (backendOf cfg) (contextSlave cfg) := by
    by_cases ht : cfg.modbus_transport.bytes = ascii "tcp"
    · rw [backendOf, if_pos ht]
      exact lawful_tcp _
    · rw [backendOf, if_neg ht, contextSlave_rtu ht h]
      rw [UInt8.le_iff_toNat_le] at h
      exact lawful_rtu ⟨Int.natCast_nonneg _, by exact_mod_cast h⟩
  exact read_returns (pollCtx cfg t_id) hb (by decide) 0 _ _ _

theorem ensureContext_isSome (cfg : GatewayConfig V) (o : ModbusOutcome) (s : ModbusState)
    (h : (ensureContext cfg o s).1 = 0) : ∃ ctx, (ensureContext cfg o s).2.g_ctx = some ctx := by
  unfold ensureContext at h ⊢
  by_cases hkeep : s.g_ctx.isSome ∧ s.g_transport.bytes = cfg.modbus_transport.bytes
  · rw [if_pos hkeep]
    exact Option.isSome_iff_exists.mp hkeep.1
  · rw [if_neg hkeep] at h ⊢
    cases hmade : o.made with
    | false => simp [hmade] at h
    | true =>
      cases hconnects : o.connects with
      | false => simp [hmade, hconnects] at h
      | true => exact ⟨_, rfl⟩

/-- A poll without registers leaves the slots alone; one with registers maps them. -/
theorem modbusLibmodbusPoll_out (tenth : UInt16 → V) (cfg : GatewayConfig V) (o : ModbusOutcome)
    (out : List (Telemetry V)) (s : ModbusState) :
    ((modbusLibmodbusPoll tenth cfg o out s).1 = -1 ∧
        (modbusLibmodbusPoll tenth cfg o out s).2.1 = out ∧
        (3 ≤ out.length → (ensureContext cfg o s).1 = 0 → o.regs = none)) ∨
      ∃ regs, o.regs = some regs ∧ 3 ≤ out.length ∧
        ((modbusLibmodbusPoll tenth cfg o out s).1, (modbusLibmodbusPoll tenth cfg o out s).2.1) =
          mapRegistersToTelemetry tenth o.now regs out := by
  unfold modbusLibmodbusPoll
  by_cases hlen : out.length < 3
  · rw [if_pos hlen]
    exact Or.inl ⟨rfl, rfl, fun h => by omega⟩
  rw [if_neg hlen]
  have hsome := ensureContext_isSome cfg o s
  cases hensure : ensureContext cfg o s with
  | mk rc s' =>
    rw [hensure] at hsome
    dsimp only at hsome ⊢
    by_cases hrc : rc = 0
    case neg =>
      rw [if_pos hrc]
      exact Or.inl ⟨rfl, rfl, fun _ h => absurd h hrc⟩
    obtain ⟨ctx, hctx⟩ := hsome hrc
    rw [if_neg (not_not.mpr hrc), hctx]
    cases hregs : o.regs with
    | none => exact Or.inl ⟨rfl, rfl, fun _ _ => rfl⟩
    | some regs => exact Or.inr ⟨regs, rfl, by omega, rfl⟩

theorem pollRead_genuine {cfg : GatewayConfig V} {t_id : UInt16} {line : Line}
    (hw : line.Writes) {regs : UInt16 × UInt16 × UInt16}
    (h : (pollRead cfg t_id line).regs = some regs) :
    ∃ rsp rest, line.stream = rsp ++ rest ∧ Genuine cfg t_id [regs.1, regs.2.1, regs.2.2] rsp := by
  rcases pollRead_cases cfg t_id with ⟨habort, -⟩ | ⟨hb, hgenuine⟩
  · rw [habort] at h
    cases h
  · cases hread : pollRead cfg t_id line with
    | aborted =>
      rw [hread] at h
      cases h
    | returns rc dest =>
      rw [hread, ReadResult.regs] at h
      split at h
      case isTrue => cases h
      case isFalse hrc =>
        cases h
        have hne := read_ne_zero (pollCtx cfg t_id) hb (by decide) 0 _ _ _ (by decide) hw hread
        obtain ⟨-, hlen, rsp, rest, hstream, hans⟩ :=
          answers_of_read (pollCtx cfg t_id) hb (by decide) 0 _ _ _ hread (by omega)
        refine ⟨rsp, rest, hstream, ?_⟩
        rw [hgenuine dest rsp (by omega), length_three hlen] at hans
        exact hans

theorem pollRead_of_genuine {cfg : GatewayConfig V} {t_id : UInt16} {line : Line}
    {r0 r1 r2 : UInt16} {rsp rest : Bytes} (h : Genuine cfg t_id [r0, r1, r2] rsp)
    (hstream : line.stream = rsp ++ rest) (hsent : ∀ req, line.sent req = req.length)
    (hd : Delivers line.answers line.stream) :
    pollRead cfg t_id line = .returns 3 [r0, r1, r2] := by
  rcases pollRead_cases cfg t_id with ⟨-, hnone⟩ | ⟨hb, hgenuine⟩
  · exact absurd h (hnone _ _)
  · have hans := (hgenuine [r0, r1, r2] rsp (by simp)).mpr h
    exact read_of_answers (pollCtx cfg t_id) hb 0 _ _ _ hans hstream hsent hd

theorem wirePoll_eq_some {tenth : UInt16 → V} {cfg : GatewayConfig V} {made connects : Bool}
    {now : UInt64} {t_id : UInt16} {line : Line} {out : List (Telemetry V)} {s : ModbusState}
    {result : Int × List (Telemetry V) × ModbusState}
    (h : wirePoll tenth cfg made connects now t_id line out s = some result) :
    result = modbusLibmodbusPoll tenth cfg
      ⟨made, connects, (pollRead cfg t_id line).regs, now⟩ out s := by
  unfold wirePoll at h
  dsimp only at h
  split at h
  · exact (Option.some.inj h).symm
  · cases h

theorem mapRegistersToTelemetry_ret {tenth : UInt16 → V} {now : UInt64}
    {regs : UInt16 × UInt16 × UInt16} {out : List (Telemetry V)} (h : 3 ≤ out.length) :
    (mapRegistersToTelemetry tenth now regs out).1 = 3 := by
  unfold mapRegistersToTelemetry
  rw [if_neg (by omega)]

/-- A poll that comes back has failed and changed no slot, or has the registers of a genuine
    answer at the front of the stream. -/
theorem wirePoll_cases {tenth : UInt16 → V} {cfg : GatewayConfig V} {made connects : Bool}
    {now : UInt64} {t_id : UInt16} {line : Line} {out out' : List (Telemetry V)}
    {s s' : ModbusState} {rc : Int} (hw : line.Writes)
    (h : wirePoll tenth cfg made connects now t_id line out s = some (rc, out', s')) :
    (rc = -1 ∧ out' = out) ∨
      (rc = 3 ∧ ∃ r0 r1 r2 rsp rest, line.stream = rsp ++ rest ∧
        Genuine cfg t_id [r0, r1, r2] rsp ∧
        out' = (mapRegistersToTelemetry tenth now (r0, r1, r2) out).2) := by
  have hpoll := wirePoll_eq_some h
  rcases modbusLibmodbusPoll_out tenth cfg
    ⟨made, connects, (pollRead cfg t_id line).regs, now⟩ out s with
    ⟨hrc, hout, -⟩ | ⟨regs, hregs, hlen, hpair⟩
  · rw [← hpoll] at hrc hout
    exact Or.inl ⟨hrc, hout⟩
  · rw [← hpoll] at hpair
    obtain ⟨rsp, rest, hstream, hgenuine⟩ := pollRead_genuine hw hregs
    have hrc := (congrArg Prod.fst hpair).trans (mapRegistersToTelemetry_ret hlen)
    have hout := congrArg Prod.snd hpair
    exact Or.inr ⟨hrc, regs.1, regs.2.1, regs.2.2, rsp, rest, hstream, hgenuine, hout⟩

/-- A line that carries the request and the reply gives the points. -/
theorem wirePoll_of_genuine {tenth : UInt16 → V} {cfg : GatewayConfig V} {made connects : Bool}
    {now : UInt64} {t_id : UInt16} {line : Line} {out : List (Telemetry V)} {s : ModbusState}
    {r0 r1 r2 : UInt16} {rsp rest : Bytes} (hstream : line.stream = rsp ++ rest)
    (hgenuine : Genuine cfg t_id [r0, r1, r2] rsp) (hsent : ∀ req, line.sent req = req.length)
    (hd : Delivers line.answers line.stream) (hlen : 3 ≤ out.length)
    (hensure : (ensureContext cfg ⟨made, connects, some (r0, r1, r2), now⟩ s).1 = 0) :
    ∃ s', wirePoll tenth cfg made connects now t_id line out s =
      some (3, (mapRegistersToTelemetry tenth now (r0, r1, r2) out).2, s') := by
  have hread := pollRead_of_genuine hgenuine hstream hsent hd
  have hregs : (pollRead cfg t_id line).regs = some (r0, r1, r2) := by
    rw [hread]
    rfl
  refine ⟨(modbusLibmodbusPoll tenth cfg ⟨made, connects, some (r0, r1, r2), now⟩ out s).2.2, ?_⟩
  unfold wirePoll
  dsimp only
  rw [hregs, if_pos (Or.inr (Or.inr (by rw [hread]; exact ReadResult.noConfusion)))]
  rcases modbusLibmodbusPoll_out tenth cfg ⟨made, connects, some (r0, r1, r2), now⟩ out s with
    ⟨-, -, hnone⟩ | ⟨regs, hsome, -, hpair⟩
  · cases hnone hlen hensure
  · cases hsome
    have hrc := (congrArg Prod.fst hpair).trans (mapRegistersToTelemetry_ret hlen)
    have hout := congrArg Prod.snd hpair
    dsimp only at hrc hout
    rw [← hrc, ← hout]

/-- **What a poll puts into its slots comes from a genuine answer**: it fails and leaves them as
    they are, or the stream starts with the slave's reply to this read and the points hold its
    registers. A line that carries the request and the reply, however cut up, gives the points. -/
theorem wirePoll_exact (tenth : UInt16 → V) (cfg : GatewayConfig V) (made connects : Bool)
    (now : UInt64) (t_id : UInt16) (line : Line) (out : List (Telemetry V)) (s : ModbusState) :
    (line.Writes → ∀ rc out' s',
      wirePoll tenth cfg made connects now t_id line out s = some (rc, out', s') →
        (rc = -1 ∧ out' = out) ∨
          (rc = 3 ∧ ∃ r0 r1 r2 rsp rest, line.stream = rsp ++ rest ∧
            Genuine cfg t_id [r0, r1, r2] rsp ∧
            out' = (mapRegistersToTelemetry tenth now (r0, r1, r2) out).2)) ∧
    (∀ r0 r1 r2 rsp rest, line.stream = rsp ++ rest → Genuine cfg t_id [r0, r1, r2] rsp →
      (∀ req, line.sent req = req.length) → Delivers line.answers line.stream → 3 ≤ out.length →
        (ensureContext cfg ⟨made, connects, some (r0, r1, r2), now⟩ s).1 = 0 →
        ∃ s', wirePoll tenth cfg made connects now t_id line out s =
          some (3, (mapRegistersToTelemetry tenth now (r0, r1, r2) out).2, s')) := by
  constructor
  · intro hw rc out' s' h
    exact wirePoll_cases hw h
  · intro r0 r1 r2 rsp rest hstream hgenuine hsent hd hlen hensure
    exact wirePoll_of_genuine hstream hgenuine hsent hd hlen hensure

/-- A poll of a valid slave comes back. -/
theorem wirePoll_returns {cfg : GatewayConfig V} (h : cfg.modbus_slave_id ≤ 247)
    (tenth : UInt16 → V) (made connects : Bool) (now : UInt64) (t_id : UInt16) (line : Line)
    (out : List (Telemetry V)) (s : ModbusState) :
    ∃ rc out' s', wirePoll tenth cfg made connects now t_id line out s = some (rc, out', s') := by
  obtain ⟨rc, dest, hread⟩ := pollRead_returns h t_id line
  refine ⟨_, _, _, if_pos (Or.inr (Or.inr ?_))⟩
  rw [hread]
  exact ReadResult.noConfusion

/-- **A corrupted reply leaves no trace.** On a serial line, a reply of a valid slave to the poll
    with an error the checksum is meant for, whatever comes behind it and however it is cut up,
    makes the poll return `-1` and leaves every slot as it was. -/
theorem wirePoll_corrupted {tenth : UInt16 → V} {cfg : GatewayConfig V} {made connects : Bool}
    {now : UInt64} {t_id : UInt16} {line : Line} {out : List (Telemetry V)} {s : ModbusState}
    {r0 r1 r2 : UInt16} {corrupted rest : Bytes} (hw : line.Writes)
    (ht : cfg.modbus_transport.bytes ≠ ascii "tcp") (hslave : cfg.modbus_slave_id ≤ 247)
    (hlen : corrupted.length =
      (modbusFrame (rtuReplyMsg cfg.modbus_slave_id [r0, r1, r2])).length)
    (herror : Detectable (modbusFrame (rtuReplyMsg cfg.modbus_slave_id [r0, r1, r2])) corrupted)
    (hstream : line.stream = corrupted ++ rest) :
    ∃ s', wirePoll tenth cfg made connects now t_id line out s = some (-1, out, s') := by
  obtain ⟨rc, out', s', h⟩ := wirePoll_returns hslave tenth made connects now t_id line out s
  rcases wirePoll_cases hw h with ⟨rfl, rfl⟩ | ⟨-, r0', r1', r2', rsp, rest', hstream', hgenuine, -⟩
  · exact ⟨s', h⟩
  · rw [Genuine, if_neg ht] at hgenuine
    have hsame : rsp.length = corrupted.length := by
      rw [hgenuine.2, hlen, length_rtuReply, length_rtuReply]
      rfl
    have hrsp : rsp = corrupted :=
      (List.append_inj (hstream'.symm.trans hstream) hsame).1
    have hcheck := crcCheck_eq_false_of_detectable hlen herror
    rw [← hrsp, hgenuine.2, crcCheck_modbusFrame] at hcheck
    cases hcheck

end

/-- The reply of slave 1 with 76.2 %, 23.0 C and 90.0 kW, a byte at a time, and noise behind it. -/
def sampleLine : Line where
  sent req := req.length
  answers := List.replicate 16 (.ready 1)
  stream := modbusFrame (rtuReplyMsg 1 [762, 230, 900]) ++ [9, 9, 9, 9]

/-- Three slots. -/
def sampleSlots : List (Telemetry ℚ) := List.replicate 3 (telemetryInit 0 [] [] 0 [] 0)

theorem wirePoll_exact_sample : ∃ s',
    wirePoll (fun r => (r.toNat : ℚ) / 10) (gatewayConfigDefaults ℚ) true true 5 0 sampleLine
      sampleSlots modbusStart =
        some (3, (mapRegistersToTelemetry (fun r => (r.toNat : ℚ) / 10) 5 (762, 230, 900)
          sampleSlots).2, s') := by
  have hgenuine : Genuine (gatewayConfigDefaults ℚ) 0 [762, 230, 900]
      (modbusFrame (rtuReplyMsg 1 [762, 230, 900])) := by
    rw [Genuine, if_neg (by decide)]
    exact ⟨by decide, rfl⟩
  have hd : Delivers sampleLine.answers sampleLine.stream := by
    refine ⟨?_, by decide⟩
    intro a ha
    rw [List.eq_of_mem_replicate ha]
    exact RecvAnswer.noConfusion
  exact (wirePoll_exact _ _ true true 5 0 sampleLine sampleSlots modbusStart).2 762 230 900 _
    [9, 9, 9, 9] rfl hgenuine (fun _ => rfl) hd (by decide) (by decide)

/-- The same line with two bits of the first register changed. -/
def corruptedLine : Line where
  sent req := req.length
  answers := List.replicate 16 (.ready 1)
  stream := [0x01, 0x03, 0x06, 0x06, 0xFB, 0x00, 0xE6, 0x03, 0x84, 0x19, 0xE7] ++ [9, 9, 9, 9]

theorem wirePoll_corrupted_sample : ∃ s',
    wirePoll (fun r => (r.toNat : ℚ) / 10) (gatewayConfigDefaults ℚ) true true 5 0 corruptedLine
      sampleSlots modbusStart = some (-1, sampleSlots, s') := by
  have hdiff : differing (modbusFrame (rtuReplyMsg 1 [762, 230, 900]))
      [0x01, 0x03, 0x06, 0x06, 0xFB, 0x00, 0xE6, 0x03, 0x84, 0x19, 0xE7] = {26, 32} := by
    decide +kernel
  have hw : corruptedLine.Writes := by
    intro req hreq hzero
    exact hreq (List.length_eq_zero_iff.mp (Int.ofNat_eq_zero.mp hzero))
  exact wirePoll_corrupted hw (by decide) (by decide) (by decide)
    (.pair 26 32 (by decide) (by decide) hdiff) rfl

end Libmodbus
end EdgeFlow
