import Mathlib.Data.List.Forall2
import EdgeFlow.Lib.CText

/-!
# The receiving side of MQTT 3.1.1

What a broker does with the bytes of one connection, for the client packets CONNECT, PUBLISH
and PINGREQ: read a fixed header, read a Remaining Length, wait for that many bytes, decode
the body, repeat. A parser of a byte stream has three answers and not two — a packet, a
protocol error, or *not enough bytes yet* — and the third is what makes the stream results
possible: `IsFrame bytes p` says that `bytes` is read as `p` whatever follows it, **and** that
no proper prefix of it is read as anything.

From that pair unique decodability of a concatenation is one induction
(`parseStream_frames`): frames come back as their packets, in order, and a cut-off frame at
the end comes back as bytes still waited for.

The decoder checks the structure of a packet and nothing of its texts: an empty client id, a topic
that is empty or has wildcards in it, and bytes that are not UTF-8 all pass.
-/

set_option autoImplicit false

namespace EdgeFlow
namespace Lib
namespace Mqtt

/-! ## Packets -/

inductive Packet where
  | connect (protocol : Bytes) (level flags : UInt8) (keepAlive : Nat) (clientId : Bytes)
  | publish (dup : Bool) (qos : Nat) (retain : Bool) (topic payload : Bytes)
  | pingreq
  deriving DecidableEq

/-- A parse of a byte stream. -/
inductive Parse (α : Type) where
  | more
  | bad
  | ok (a : α) (rest : Bytes)
  deriving DecidableEq

/-- The variable-length Remaining Length: seven bits a byte, least significant group first,
    the top bit says that another byte follows, and there are at most `fuel` of them. -/
def remLen : Nat → Bytes → Parse Nat
  | 0, _ => .bad
  | _ + 1, [] => .more
  | fuel + 1, b :: bs =>
    if b.toNat < 128 then .ok b.toNat bs
    else match remLen fuel bs with
      | .ok n rest => .ok (b.toNat % 128 + 128 * n) rest
      | .more => .more
      | .bad => .bad

/-- A big-endian 16-bit number in front of a body. -/
def word : Bytes → Option (Nat × Bytes)
  | hi :: lo :: rest => some (hi.toNat * 256 + lo.toNat, rest)
  | _ => none

/-- A length-prefixed string in front of a body. -/
def field (body : Bytes) : Option (Bytes × Bytes) :=
  match word body with
  | some (n, rest) => if rest.length < n then none else some (rest.take n, rest.drop n)
  | none => none

/-- The body of a CONNECT without will, user name and password; nothing may be left over. -/
def connectBody (body : Bytes) : Option Packet :=
  match field body with
  | some (protocol, level :: flags :: rest) =>
    match word rest with
    | some (keepAlive, rest) =>
      match field rest with
      | some (clientId, []) =>
        if flags.toNat / 4 = 0 then some (.connect protocol level flags keepAlive clientId)
        else none
      | _ => none
    | none => none
  | _ => none

/-- The body of a PUBLISH; a QoS above `0` puts a packet identifier before the payload. -/
def publishBody (flags : Nat) (body : Bytes) : Option Packet :=
  let dup := decide (flags / 8 % 2 = 1)
  let qos := flags / 2 % 4
  let retain := decide (flags % 2 = 1)
  if qos = 3 then none
  else match field body with
    | some (topic, rest) =>
      if qos = 0 then some (.publish dup qos retain topic rest)
      else match word rest with
        | some (_, payload) => some (.publish dup qos retain topic payload)
        | none => none
    | none => none

/-- The packet types a client of this kind sends, by the high half of the first byte. -/
def parseBody (header : UInt8) (body : Bytes) : Option Packet :=
  if header.toNat = 0x10 then connectBody body
  else if header.toNat / 16 = 3 then publishBody (header.toNat % 16) body
  else if header.toNat = 0xC0 ∧ body = [] then some .pingreq
  else none

/-- One packet off the front of the stream. -/
def parsePacket : Bytes → Parse Packet
  | [] => .more
  | header :: bs =>
    match remLen 4 bs with
    | .more => .more
    | .bad => .bad
    | .ok n rest =>
      if rest.length < n then .more
      else match parseBody header (rest.take n) with
        | some p => .ok p (rest.drop n)
        | none => .bad

/-- How a stream ends: inside a packet (or between two), or at a protocol error. -/
inductive StreamEnd where
  | incomplete (rest : Bytes)
  | malformed (rest : Bytes)
  deriving DecidableEq

/-- Packets off the front until no more come; every packet is at least two bytes, so the
    stream's length bounds their number. -/
def parseLoop : Nat → Bytes → List Packet × StreamEnd
  | 0, bs => ([], .incomplete bs)
  | fuel + 1, bs =>
    match parsePacket bs with
    | .more => ([], .incomplete bs)
    | .bad => ([], .malformed bs)
    | .ok p rest => ((p :: (parseLoop fuel rest).1), (parseLoop fuel rest).2)

/-- **The stream parser**: every complete packet, and what is left. -/
def parseStream (bs : Bytes) : List Packet × StreamEnd := parseLoop (bs.length + 1) bs

/-! ## Frames -/

/-- `len` is a Remaining Length field for `n`: read as `n` whatever follows, and not readable
    from a part of it. -/
structure IsRemLen (len : Bytes) (n : Nat) : Prop where
  whole : ∀ rest, remLen 4 (len ++ rest) = .ok n rest
  part : ∀ k, k < len.length → remLen 4 (len.take k) = .more

/-- `bytes` is a frame of `p`: read as `p` whatever follows, and not readable from a part of
    it. -/
structure IsFrame (bytes : Bytes) (p : Packet) : Prop where
  whole : ∀ rest, parsePacket (bytes ++ rest) = .ok p rest
  part : ∀ k, k < bytes.length → parsePacket (bytes.take k) = .more

/-- A number read from `k` bytes of a Remaining Length is below `128 ^ k`, and `k` is not
    zero. -/
theorem remLen_bound {fuel : Nat} : ∀ {bs : Bytes} {n : Nat} {rest : Bytes},
    remLen fuel bs = .ok n rest → ∃ k, bs.length = rest.length + (k + 1) ∧ n < 128 ^ (k + 1) := by
  induction fuel with
  | zero =>
    intro bs n rest h
    simp [remLen] at h
  | succ fuel ih =>
    intro bs n rest h
    cases bs with
    | nil => simp [remLen] at h
    | cons b bs =>
      rw [remLen] at h
      split at h
      · rename_i hb
        obtain ⟨rfl, rfl⟩ := Parse.ok.inj h
        exact ⟨0, rfl, by simpa using hb⟩
      · split at h
        · -- seven bits more than the rest of the field has
          rename_i m tail hm
          obtain ⟨rfl, rfl⟩ := Parse.ok.inj h
          obtain ⟨k, hlen, hlt⟩ := ih hm
          refine ⟨k + 1, by rw [List.length_cons, hlen]; omega, ?_⟩
          rw [pow_succ]
          omega
        · cases h
        · cases h

/-- A frame is a header byte, a Remaining Length of the body's length, and a body that
    decodes. -/
theorem IsFrame.mk' (header : UInt8) {len body : Bytes} {p : Packet}
    (hl : IsRemLen len body.length) (hb : parseBody header body = some p) :
    IsFrame (header :: (len ++ body)) p where
  whole := by
    intro rest
    simp only [parsePacket, List.cons_append, List.append_assoc, hl.whole, List.length_append,
      List.take_left', List.drop_left', hb]
    rw [if_neg (by omega)]
  part := by
    intro k hk
    cases k with
    | zero => rfl
    | succ k =>
      rw [List.take_succ_cons, parsePacket]
      simp only [List.length_cons, List.length_append] at hk
      by_cases hlt : k < len.length
      · -- the cut is inside the Remaining Length
        rw [List.take_append_of_le_length (Nat.le_of_lt hlt), hl.part k hlt]
      · -- the cut is inside the body
        have hsplit : (len ++ body).take k = len ++ body.take (k - len.length) := by
          rw [List.take_append, List.take_of_length_le (by omega)]
        rw [hsplit, hl.whole]
        simp only [List.length_take]
        rw [if_pos (by omega)]

theorem IsFrame.ne_nil {bytes : Bytes} {p : Packet} (h : IsFrame bytes p) : bytes ≠ [] := by
  rintro rfl
  have := h.whole []
  simp [parsePacket] at this

/-- A proper part of a frame is waited for. -/
theorem IsFrame.more_of_cut {bytes part : Bytes} {p : Packet} (h : IsFrame bytes p)
    (hp : part <+: bytes) (hne : part ≠ bytes) : parsePacket part = .more := by
  have hlen : part.length < bytes.length := by
    refine lt_of_le_of_ne hp.length_le fun hq => hne ?_
    exact hp.eq_of_length hq
  rw [List.prefix_iff_eq_take.mp hp]
  exact h.part _ hlen

/-! ## Streams -/

theorem parseLoop_frames {frames : List Bytes} {ps : List Packet} {tail : Bytes}
    (h : List.Forall₂ IsFrame frames ps) (ht : parsePacket tail = .more) :
    ∀ fuel, frames.length < fuel →
      parseLoop fuel (frames.flatten ++ tail) = (ps, .incomplete tail) := by
  induction h with
  | nil =>
    intro fuel hf
    obtain ⟨fuel, rfl⟩ : ∃ f, fuel = f + 1 := ⟨fuel - 1, by simp at hf; omega⟩
    simp [parseLoop, ht]
  | cons hd _ ih =>
    intro fuel hf
    obtain ⟨fuel, rfl⟩ : ∃ f, fuel = f + 1 := ⟨fuel - 1, by simp at hf; omega⟩
    simp only [List.length_cons] at hf
    rw [List.flatten_cons, List.append_assoc]
    simp only [parseLoop, hd.whole, ih fuel (by omega)]

theorem length_le_flatten_length {frames : List Bytes} (h : ∀ f ∈ frames, f ≠ []) :
    frames.length ≤ frames.flatten.length := by
  induction frames with
  | nil => simp
  | cons f fs ih =>
    have hf : 0 < f.length := List.length_pos_iff.mpr (h f List.mem_cons_self)
    have := ih fun g hg => h g (List.mem_cons_of_mem _ hg)
    simp only [List.length_cons, List.flatten_cons, List.length_append]
    omega

/-- **Concatenated frames are uniquely decodable**, a cut-off last one included. -/
theorem parseStream_frames {frames : List Bytes} {ps : List Packet} {tail : Bytes}
    (h : List.Forall₂ IsFrame frames ps) (ht : parsePacket tail = .more) :
    parseStream (frames.flatten ++ tail) = (ps, .incomplete tail) := by
  have hne : ∀ f ∈ frames, f ≠ [] := by
    intro f hf
    obtain ⟨i, hi, rfl⟩ := List.mem_iff_getElem.mp hf
    exact (h.get hi (h.length_eq ▸ hi)).ne_nil
  have := length_le_flatten_length hne
  exact parseLoop_frames h ht _ (by rw [List.length_append]; omega)

end Mqtt
end Lib
end EdgeFlow
