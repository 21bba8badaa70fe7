import EdgeFlow.Proof.SessionStream

/-!
# The reply to CONNECT

TCP hands a stream over in pieces of its own choosing. `mqtt_send_connect` reads once: it takes
the first piece for the whole reply, and of that piece it looks at the first and the fourth byte.
So a reply is judged by its first piece, and two things can go wrong: a good CONNACK that comes in
two pieces is refused, and a packet that is not a CONNACK, of a length that is not two, is taken
for one.

`Replied` is a world in which the CONNECT has been written and the broker's reply is on its way;
how the write went, and on which connection, is left open.
-/

set_option autoImplicit false

namespace EdgeFlow

open Lib

variable {V : Type}

/-- The reads of a reply that comes in these pieces, and then the end of the stream. -/
def arrivals (pieces : List Bytes) : List Event :=
  pieces.map (fun data => ⟨false, .ok 0 data⟩) ++ [⟨true, .ok 0 []⟩]

/-- The pieces are a way to hand the stream over. -/
structure IsSplit (stream : Bytes) (pieces : List Bytes) : Prop where
  flatten : pieces.flatten = stream
  nonempty : ∀ piece ∈ pieces, piece ≠ []

/-- In `s`, a call of `mqtt_send_connect` gets its packet out, and the reply comes in `pieces`. -/
def Replied (fd : Nat) (client_id : Bytes) (keepalive_sec : UInt16) (s : Net V)
    (pieces : List Bytes) : Prop :=
  ∃ s₁, mqttSend fd (.connect client_id keepalive_sec) s = (.ok true, s₁) ∧
    s₁.events = arrivals pieces

/-- `mqtt_send_connect` returns `0`. -/
def Accepts (fd : Nat) (client_id : Bytes) (keepalive_sec : UInt16) (s : Net V) : Prop :=
  (mqttSendConnect fd client_id keepalive_sec s).1 = .ok true

/-- The stream begins with a CONNACK that accepts: four bytes, the length byte `0x02`. -/
def BeginsWithConnack (stream : Bytes) : Prop :=
  ∃ flags rest, stream = 0x20 :: 0x02 :: flags :: 0x00 :: rest

/-- The first and the fourth byte are those of a CONNACK. -/
def LooksLikeConnack (stream : Bytes) : Prop :=
  ∃ len flags rest, stream = 0x20 :: len :: flags :: 0x00 :: rest

namespace Proof

/-! ## What one read decides -/

/-- The three tests on what `read` left in the 160-byte buffer. -/
theorem looksLikeConnack_iff (data : Bytes) :
    LooksLikeConnack data ↔
      ¬(data.take 160).length < 4 ∧
        (data.take 160)[0]? = some 0x20 ∧ (data.take 160)[3]? = some 0x00 := by
  unfold LooksLikeConnack
  rcases data with _ | ⟨a, _ | ⟨b, _ | ⟨c, _ | ⟨d, rest⟩⟩⟩⟩
  · simp
  · simp
  · simp
  · simp
  · simp only [List.cons.injEq, List.take_succ_cons, List.length_cons, List.getElem?_cons_zero,
      List.getElem?_cons_succ, Option.some.injEq]
    constructor
    · rintro ⟨_, _, _, rfl, -, -, rfl, -⟩
      exact ⟨by omega, rfl, rfl⟩
    · rintro ⟨-, rfl, rfl⟩
      exact ⟨b, c, rest, rfl, rfl, rfl, rfl, rfl⟩

/-- **The first piece decides.** -/
theorem accepts_iff_first {fd : Nat} {client_id : Bytes} {keepalive_sec : UInt16} {s : Net V}
    {pieces : List Bytes} (h : Replied fd client_id keepalive_sec s pieces) :
    Accepts fd client_id keepalive_sec s ↔ LooksLikeConnack (pieces.headD []) := by
  obtain ⟨s₁, hsend, hevents⟩ := h
  obtain ⟨resets, rest, hfirst⟩ : ∃ resets rest,
      s₁.events = ⟨resets, .ok 0 (pieces.headD [])⟩ :: rest := by
    rw [hevents]
    cases pieces with
    | nil => exact ⟨true, [], rfl⟩
    | cons piece pieces => exact ⟨false, arrivals pieces, rfl⟩
  have hread : sysRead fd 160 s₁ = (.ok (some ((pieces.headD []).take 160)),
      (brokerMove fd resets { s₁ with events := rest }).logOp .read fd) := by
    unfold sysRead
    rw [Prog.bind_apply_ok (nextEvent_cons hfirst)]
    rfl
  unfold Accepts mqttSendConnect
  rw [Prog.bind_apply_ok hsend, if_pos rfl, Prog.bind_apply_ok hread, looksLikeConnack_iff]
  dsimp only
  generalize (pieces.headD []).take 160 = data
  by_cases hlen : data.length < 4
  · rw [if_pos hlen]
    exact iff_of_false (fun h => by cases h) fun h => h.1 hlen
  · rw [if_neg hlen]
    show Except.ok (decide (data[0]? = some 0x20 ∧ data[3]? = some 0x00)) = Except.ok true ↔ _
    rw [Except.ok.injEq, decide_eq_true_eq]
    exact (and_iff_right hlen).symm

/-! ## Streams and their first pieces -/

theorem looksLikeConnack_append {p q : Bytes} (h : LooksLikeConnack p) :
    LooksLikeConnack (p ++ q) := by
  obtain ⟨len, flags, rest, rfl⟩ := h
  exact ⟨len, flags, rest ++ q, rfl⟩

/-- A piece of at least four bytes looks as the stream does. -/
theorem looksLikeConnack_first_iff {p q : Bytes} (h : LooksLikeConnack (p ++ q)) :
    LooksLikeConnack p ↔ 4 ≤ p.length := by
  constructor
  · rintro ⟨len, flags, rest, rfl⟩
    simp only [List.length_cons]
    omega
  · intro hlen
    obtain ⟨len, flags, rest, hstream⟩ := h
    rcases p with _ | ⟨a, _ | ⟨b, _ | ⟨c, _ | ⟨d, p⟩⟩⟩⟩
    · simp at hlen
    · simp at hlen
    · simp at hlen
    · simp at hlen
    · simp only [List.cons_append, List.cons.injEq] at hstream
      obtain ⟨rfl, -, -, rfl, -⟩ := hstream
      exact ⟨b, c, p, rfl⟩

theorem beginsWithConnack_cons (len flags : UInt8) (rest : Bytes) :
    BeginsWithConnack (0x20 :: len :: flags :: 0x00 :: rest) ↔ len = 0x02 := by
  constructor
  · rintro ⟨flags', rest', h⟩
    simp only [List.cons.injEq, true_and] at h
    exact h.1
  · rintro rfl
    exact ⟨flags, rest, rfl⟩

theorem looksLikeConnack_of_begins {stream : Bytes} (h : BeginsWithConnack stream) :
    LooksLikeConnack stream := by
  obtain ⟨flags, rest, rfl⟩ := h
  exact ⟨0x02, flags, rest, rfl⟩

theorem headD_append_of_split {stream : Bytes} {pieces : List Bytes} (h : IsSplit stream pieces) :
    pieces.headD [] ++ pieces.tail.flatten = stream := by
  rw [← h.flatten]
  cases pieces with
  | nil => rfl
  | cons piece pieces => rfl

/-- When the judgement on the first piece is the judgement on the stream. -/
theorem first_decides_iff (p q : Bytes) :
    (LooksLikeConnack p ↔ BeginsWithConnack (p ++ q)) ↔
      ∀ len flags rest, p ++ q = 0x20 :: len :: flags :: 0x00 :: rest →
        (len = 0x02 ↔ 4 ≤ p.length) := by
  by_cases hlooks : LooksLikeConnack (p ++ q)
  · have hfirst := looksLikeConnack_first_iff hlooks
    obtain ⟨len, flags, rest, hstream⟩ := hlooks
    rw [hfirst, hstream, beginsWithConnack_cons]
    constructor
    · intro h len' flags' rest' heq
      simp only [List.cons.injEq, true_and] at heq
      rw [← heq.1]
      exact h.symm
    · intro h
      exact (h len flags rest rfl).symm
  · refine iff_of_true (iff_of_false ?_ ?_) ?_
    · exact fun h => hlooks (looksLikeConnack_append h)
    · exact fun h => hlooks (looksLikeConnack_of_begins h)
    · exact fun len flags rest h => absurd ⟨len, flags, rest, h⟩ hlooks

/-! ## A world for every reply -/

/-- One open connection; the CONNECT is written in one go. -/
def replyWorld (cfg : GatewayConfig V) (client_id : Bytes) (keepalive_sec : UInt16)
    (pieces : List Bytes) : Net V :=
  { mqttSessionInit cfg [] with
    conns := [⟨[], false, false⟩]
    events := ⟨false, .ok (connectBytes client_id keepalive_sec).length []⟩ :: arrivals pieces }

theorem writeLoop_done (fd fuel : Nat) (s : Net V) : writeLoop fd fuel [] s = (.ok true, s) := by
  cases fuel with
  | zero => rfl
  | succ fuel => rfl

theorem writeLoop_took {fd fuel n : Nat} {b : UInt8} {bs : Bytes} {s s₁ : Net V}
    (h : sysWrite fd (b :: bs) s = (.ok (.took n), s₁)) :
    writeLoop fd (fuel + 1) (b :: bs) s = writeLoop fd fuel ((b :: bs).drop n) s₁ :=
  Prog.bind_apply_ok h _

theorem replyWorld_replied (cfg : GatewayConfig V) {client_id : Bytes} {keepalive_sec : UInt16}
    (hfits : (Sent.connect client_id keepalive_sec).fits = true) (pieces : List Bytes) :
    Replied 0 client_id keepalive_sec (replyWorld cfg client_id keepalive_sec pieces) pieces := by
  let buf := connectBytes client_id keepalive_sec
  let s := replyWorld cfg client_id keepalive_sec pieces
  obtain ⟨s₁, htook, hevents⟩ : ∃ s₁, sysWrite 0 buf s =
      (.ok (.took (max 1 (min buf.length buf.length))), s₁) ∧ s₁.events = arrivals pieces :=
    ⟨_, rfl, rfl⟩
  have hwrite : mqttWriteAll 0 buf s = (.ok true, s₁) := by
    have hdrop : buf.drop (max 1 (min buf.length buf.length)) = [] := by
      have hpos : 1 ≤ buf.length := Nat.le_add_left _ _
      rw [Nat.min_self, Nat.max_eq_right hpos, List.drop_length]
    have hloop : writeLoop 0 ((arrivals pieces).length + 1) buf s =
        writeLoop 0 (arrivals pieces).length (buf.drop (max 1 (min buf.length buf.length))) s₁ :=
      writeLoop_took htook
    rw [hdrop, writeLoop_done] at hloop
    exact hloop
  refine ⟨{ s₁ with sends := s₁.sends ++ [(0, .connect client_id keepalive_sec)] }, ?_, hevents⟩
  unfold mqttSend
  rw [if_pos hfits]
  exact Prog.bind_apply_ok hwrite _

/-! ## The handshake -/

/-- **When the handshake does not depend on TCP segmentation.** A reply handed over in some way is
    judged right exactly if this holds: should its first byte be `0x20` and its fourth `0x00`, its
    second is `0x02` exactly if the first piece has four bytes. And a reply is judged right however
    it is handed over exactly if its first and fourth byte are not those of a CONNACK. -/
theorem handshake_segmentation_iff (cfg : GatewayConfig V) (stream : Bytes) :
    (∀ (fd : Nat) (client_id : Bytes) (keepalive_sec : UInt16) (s : Net V) (pieces : List Bytes),
      Replied fd client_id keepalive_sec s pieces → IsSplit stream pieces →
      ((Accepts fd client_id keepalive_sec s ↔ BeginsWithConnack stream) ↔
        ∀ len flags rest, stream = 0x20 :: len :: flags :: 0x00 :: rest →
          (len = 0x02 ↔ 4 ≤ (pieces.headD []).length))) ∧
    ((∀ (fd : Nat) (client_id : Bytes) (keepalive_sec : UInt16) (s : Net V) (pieces : List Bytes),
      Replied fd client_id keepalive_sec s pieces → s.cfg = cfg → IsSplit stream pieces →
      (Accepts fd client_id keepalive_sec s ↔ BeginsWithConnack stream)) ↔
        ¬LooksLikeConnack stream) := by
  constructor
  · intro fd client_id keepalive_sec s pieces hreplied hsplit
    rw [accepts_iff_first hreplied, ← headD_append_of_split hsplit]
    exact first_decides_iff _ _
  · constructor
    · rintro hall ⟨len, flags, rest, rfl⟩
      have hfits : (Sent.connect [] 0).fits = true := by decide
      -- whole, and with its first byte alone
      have hwhole := hall 0 [] 0 _ [0x20 :: len :: flags :: 0x00 :: rest]
        (replyWorld_replied cfg hfits _) rfl ⟨by simp, by simp⟩
      have hcut := hall 0 [] 0 _ [[0x20], len :: flags :: 0x00 :: rest]
        (replyWorld_replied cfg hfits _) rfl ⟨by simp, by simp⟩
      rw [accepts_iff_first (replyWorld_replied cfg hfits _)] at hwhole hcut
      have hbegins := hwhole.mp ⟨len, flags, rest, rfl⟩
      obtain ⟨_, _, _, hlooks⟩ := hcut.mpr hbegins
      simp at hlooks
    · intro hno fd client_id keepalive_sec s pieces hreplied _ hsplit
      rw [accepts_iff_first hreplied]
      refine iff_of_false (fun h => hno ?_) fun h => hno (looksLikeConnack_of_begins h)
      rw [← headD_append_of_split hsplit]
      exact looksLikeConnack_append h

/-- The ways of a CONNACK into the client: whole it is accepted. -/
theorem handshake_segmentation_iff_whole :
    Accepts 0 [] 0 (replyWorld (gatewayConfigDefaults ℚ) [] 0 [[0x20, 0x02, 0x00, 0x00]]) := by
  have hreplied := replyWorld_replied (gatewayConfigDefaults ℚ)
    (show (Sent.connect [] 0).fits = true by decide) [[0x20, 0x02, 0x00, 0x00]]
  have hsplit : IsSplit [0x20, 0x02, 0x00, 0x00] [[0x20, 0x02, 0x00, 0x00]] :=
    ⟨rfl, by simp⟩
  refine (((handshake_segmentation_iff (gatewayConfigDefaults ℚ) [0x20, 0x02, 0x00, 0x00]).1 0 [] 0
    _ _ hreplied hsplit).mpr ?_).mpr ⟨0x00, [], rfl⟩
  intro len flags rest hstream
  simp only [List.cons.injEq, true_and] at hstream
  rw [← hstream.1]
  decide

/-- A CONNACK that comes in two pieces is refused, and a packet with the wrong length byte is
    accepted. -/
theorem handshake_depends_on_segmentation :
    (IsSplit [0x20, 0x02, 0x00, 0x00] [[0x20, 0x02], [0x00, 0x00]] ∧
      BeginsWithConnack [0x20, 0x02, 0x00, 0x00] ∧
      ¬Accepts 0 [] 0
        (replyWorld (gatewayConfigDefaults ℚ) [] 0 [[0x20, 0x02], [0x00, 0x00]])) ∧
    (IsSplit [0x20, 0x7F, 0x00, 0x00] [[0x20, 0x7F, 0x00, 0x00]] ∧
      ¬BeginsWithConnack [0x20, 0x7F, 0x00, 0x00] ∧
      Accepts 0 [] 0
        (replyWorld (gatewayConfigDefaults ℚ) [] 0 [[0x20, 0x7F, 0x00, 0x00]])) := by
  have hreplied := replyWorld_replied (gatewayConfigDefaults ℚ)
    (show (Sent.connect [] 0).fits = true by decide)
  refine ⟨⟨⟨rfl, by simp⟩, ⟨0x00, [], rfl⟩, ?_⟩, ⟨⟨rfl, by simp⟩, ?_, ?_⟩⟩
  · rw [accepts_iff_first (hreplied _)]
    rintro ⟨len, flags, rest, h⟩
    cases h
  · rw [beginsWithConnack_cons]
    decide
  · rw [accepts_iff_first (hreplied _)]
    exact ⟨0x7F, 0x00, [], rfl⟩

end Proof
end EdgeFlow
