import EdgeFlow.Lib.JsonText
import EdgeFlow.ThirdParty.CJson

/-!
# cJSON never leaves its memory

`cJsonParse_safe` is about every text, whatever `malloc` refuses: the parser returns, it has read
nothing outside the text and stored nothing outside a block, its recursion is at most one deeper
than the nesting limit, and what it leaves allocated is the tree it returns.

The interesting block is the one of `parse_string`, whose size comes from a first loop that pairs
each backslash with the character behind it. The second loop need not agree with that pairing: a
`\u` takes four characters whatever they are, and can end between a backslash and its partner.
`Room` is what is left of the block when the two loops have come apart.
-/

set_option autoImplicit false

namespace EdgeFlow
namespace CJson

open Lib

/-! ## Where the parser is -/

/-- The buffer is at an offset and a depth, and so many blocks are live. -/
structure At (offset depth live : Nat) (s : ParseBuffer) : Prop where
  offset_eq : s.offset = offset
  depth_eq : s.depth = depth
  live_eq : s.live = live

/-- From such a state the program returns, and with no fault. -/
abbrev Safe {α : Type} (o d l : Nat) (x : Parse α) (Q : α → ParseBuffer → Prop) : Prop :=
  Triple (At o d l) x Q fun _ _ => False

section
variable {o d l : Nat} {α β : Type} {content : Bytes} {grants : Nat → Bool}

theorem Safe.get_bind {f : ParseBuffer → Parse β} {R : β → ParseBuffer → Prop}
    (h : ∀ s, At o d l s → Safe o d l (f s) R) : Safe o d l (Prog.get >>= f) R := by
  refine Triple.get_bind fun s hs => ?_
  refine (h s hs).pre fun s' hs' => ?_
  rw [hs']
  exact hs

/-- Go on with what is known of the result. -/
theorem Safe.bind_fact {o' d' l' : Nat} {x : Parse α} {f : α → Parse β} {F : α → Prop}
    {R : β → ParseBuffer → Prop} (hx : Safe o d l x fun a s => F a ∧ At o' d' l' s)
    (hf : ∀ a, F a → Safe o' d' l' (f a) R) : Safe o d l (x >>= f) R := by
  refine Triple.bind_at hx fun a s h => ?_
  exact (hf a h.1).starting h.2

theorem Safe.ret {a : α} {Q : α → ParseBuffer → Prop} (h : ∀ s, At o d l s → Q a s) :
    Safe o d l (pure a) Q :=
  Triple.pure h

theorem readAt_safe {i : Nat} (h : i < content.length) :
    Safe o d l (readAt content i) fun b s => content[i]? = some b ∧ At o d l s := by
  have hi : content[i]? = some content[i] := List.getElem?_eq_getElem h
  rw [readAt, hi]
  exact Triple.pure fun s hs => ⟨rfl, hs⟩

theorem release_safe {n : Nat} (h : n ≤ l) :
    Safe o d l (release n) fun _ => At o d (l - n) := by
  refine Safe.get_bind fun s hs => ?_
  rw [if_pos (by rw [hs.live_eq]; exact h)]
  refine Triple.modify fun s hs => ⟨hs.offset_eq, hs.depth_eq, ?_⟩
  rw [hs.live_eq]

theorem moveTo_safe (p : Nat) : Safe o d l (moveTo p) fun _ => At p d l :=
  Triple.modify fun _ hs => ⟨rfl, hs.depth_eq, hs.live_eq⟩

theorem allocate_safe :
    Safe o d l (allocate grants) fun r => At o d (if r then l + 1 else l) := by
  refine Safe.get_bind fun s₀ _ => ?_
  split
  · refine Triple.bind (Q := fun _ => At o d (l + 1)) ?_ fun _ => Triple.pure fun _ h => h
    refine Triple.modify fun s hs => ⟨hs.offset_eq, hs.depth_eq, ?_⟩
    rw [hs.live_eq]
  · refine Triple.bind (Q := fun _ => At o d l) ?_ fun _ => Triple.pure fun _ h => h
    exact Triple.modify fun s hs => ⟨hs.offset_eq, hs.depth_eq, hs.live_eq⟩

theorem store_safe {capacity : Nat} {output bytes : Bytes}
    (h : output.length + bytes.length ≤ capacity) :
    Safe o d l (store capacity output bytes) fun r s => r = output ++ bytes ∧ At o d l s := by
  rw [store, if_pos h]
  exact Triple.pure fun _ hs => ⟨rfl, hs⟩

theorem skip_safe :
    Safe o d l (bufferSkipWhitespace content) fun _ => At (skipFrom content o) d l := by
  refine Triple.modify fun s hs => ⟨?_, hs.depth_eq, hs.live_eq⟩
  rw [hs.offset_eq]

end

/-! ## White space -/

section
variable {content : Bytes} {o : Nat}

theorem takeWhile_length_le (p : UInt8 → Bool) (bs : Bytes) : (bs.takeWhile p).length ≤ bs.length :=
  (List.takeWhile_prefix p).length_le

theorem le_skipFrom (content : Bytes) (o : Nat) : o ≤ skipFrom content o := by
  unfold skipFrom
  split
  case isFalse => exact Nat.le_refl o
  case isTrue h =>
    have hlen := takeWhile_length_le (· ≤ 32) (content.drop o)
    rw [List.length_drop] at hlen
    simp only
    split <;> omega

theorem skipFrom_lt (h : o < content.length) : skipFrom content o < content.length := by
  have hlen := takeWhile_length_le (· ≤ 32) (content.drop o)
  rw [List.length_drop] at hlen
  simp only [skipFrom, if_pos h]
  split <;> omega

theorem skipFrom_le (h : o ≤ content.length) : skipFrom content o ≤ content.length := by
  rcases Nat.lt_or_eq_of_le h with hlt | rfl
  · exact Nat.le_of_lt (skipFrom_lt hlt)
  · simp [skipFrom]

end

/-! ## The characters of a string, and what they become -/

/-- The characters as the first loop of `parse_string` counts them. -/
def tokens : Bytes → Nat
  | [] => 0
  | [_] => 1
  | a :: b :: bs => if a = 0x5C then 1 + tokens bs else 1 + tokens (b :: bs)

/-- How much of the block is left for the rest of the string: its tokens; or, in the middle of
    one, a byte for what is left of it and the tokens behind. -/
inductive Room : Bytes → Nat → Prop where
  | aligned (rest : Bytes) : Room rest (tokens rest)
  | inside (b : UInt8) (rest : Bytes) : Room (b :: rest) (1 + tokens rest)

theorem tokens_cons {b : UInt8} (hb : b ≠ 0x5C) (rest : Bytes) :
    tokens (b :: rest) = 1 + tokens rest := by
  cases rest with
  | nil => rfl
  | cons c rest => rw [tokens, if_neg hb]

theorem tokens_escape (c : UInt8) (rest : Bytes) :
    tokens (0x5C :: c :: rest) = 1 + tokens rest := by
  rw [tokens, if_pos rfl]

theorem Room.drop_one {b : UInt8} {rest : Bytes} {n : Nat} (h : Room (b :: rest) n) :
    ∃ m, Room rest m ∧ m ≤ n ∧ (b ≠ 0x5C → m + 1 ≤ n) := by
  cases h with
  | aligned =>
    by_cases hb : b = 0x5C
    · -- the loops come apart: the partner of the backslash still has its byte
      subst hb
      cases rest with
      | nil => exact ⟨0, .aligned [], Nat.zero_le _, fun h => absurd rfl h⟩
      | cons c rest =>
        refine ⟨1 + tokens rest, .inside c rest, ?_, fun h => absurd rfl h⟩
        rw [tokens_escape]
    · refine ⟨tokens rest, .aligned rest, ?_, fun _ => ?_⟩
      · rw [tokens_cons hb]
        omega
      · rw [tokens_cons hb]
        omega
  | inside => exact ⟨tokens rest, .aligned rest, by omega, fun _ => by omega⟩

/-- An escape of two characters, seen from wherever the second loop is. -/
theorem Room.drop_escape {c : UInt8} {rest : Bytes} {n : Nat} (h : Room (0x5C :: c :: rest) n) :
    ∃ m, Room rest m ∧ m + 1 ≤ n := by
  cases h with
  | aligned => exact ⟨tokens rest, .aligned rest, by rw [tokens_escape]; omega⟩
  | inside =>
    obtain ⟨m, hm, hle, -⟩ := (Room.aligned (c :: rest)).drop_one
    exact ⟨m, hm, by omega⟩

/-- A backslash that is the last character before the quote. -/
theorem Room.last {b : UInt8} {n : Nat} (h : Room [b] n) : n = 1 := by
  cases h with
  | aligned => rfl
  | inside => rfl

theorem Room.nil {n : Nat} (h : Room [] n) : n = 0 := by
  cases h
  rfl

theorem Room.drop_four {a b c d : UInt8} {rest : Bytes} {n : Nat}
    (h : Room (a :: b :: c :: d :: rest) n) :
    ∃ m, Room rest m ∧ m ≤ n ∧
      (a ≠ 0x5C → b ≠ 0x5C → c ≠ 0x5C → d ≠ 0x5C → m + 4 ≤ n) := by
  obtain ⟨m₁, h₁, hle₁, hlt₁⟩ := h.drop_one
  obtain ⟨m₂, h₂, hle₂, hlt₂⟩ := h₁.drop_one
  obtain ⟨m₃, h₃, hle₃, hlt₃⟩ := h₂.drop_one
  obtain ⟨m₄, h₄, hle₄, hlt₄⟩ := h₃.drop_one
  refine ⟨m₄, h₄, by omega, fun ha hb hc hd => ?_⟩
  have := hlt₁ ha
  have := hlt₂ hb
  have := hlt₃ hc
  have := hlt₄ hd
  omega

/-! ## The part of the text between two positions -/

def span (content : Bytes) (p e : Nat) : Bytes := (content.take e).drop p

section
variable {content : Bytes} {p e : Nat}

theorem span_cons {b : UInt8} (hb : content[p]? = some b) (h : p < e) :
    span content p e = b :: span content (p + 1) e := by
  obtain ⟨hp, rfl⟩ := List.getElem?_eq_some_iff.mp hb
  have hlen : p < (content.take e).length := by
    rw [List.length_take]
    omega
  rw [span, List.drop_eq_getElem_cons hlen, List.getElem_take]
  rfl

theorem span_nil (h : e ≤ p) : span content p e = [] := by
  apply List.drop_eq_nil_of_le
  rw [List.length_take]
  omega

end

/-! ## `parse_hex4` and `utf16_literal_to_utf8` -/

theorem parseHex4_eq {content : Bytes} {a b c d : UInt8} {i : Nat} (ha : content[i]? = some a)
    (hb : content[i + 1]? = some b) (hc : content[i + 2]? = some c)
    (hd : content[i + 3]? = some d) (rest : Bytes) (s : ParseBuffer) :
    parseHex4 content i s =
      (.ok (((Json.hex4 (a :: b :: c :: d :: rest)).map Prod.fst).getD 0), s) := by
  have hread : ∀ {j : Nat} {x : UInt8}, content[j]? = some x → readAt content j s = (.ok x, s) := by
    intro j x hx
    rw [readAt, hx]
    rfl
  simp only [parseHex4, parseHex4From, Json.hex4]
  rw [Prog.bind_apply_ok (hread ha)]
  cases Json.hexValue a with
  | none => rfl
  | some a =>
    simp only
    rw [Prog.bind_apply_ok (hread hb)]
    cases Json.hexValue b with
    | none => rfl
    | some b =>
      simp only
      rw [Prog.bind_apply_ok (hread hc)]
      cases Json.hexValue c with
      | none => rfl
      | some c =>
        simp only
        rw [Prog.bind_apply_ok (hread hd)]
        cases Json.hexValue d with
        | none => rfl
        | some d => simp [Nat.shiftLeft_eq]

/-- Four digits that mean something are no backslashes. -/
theorem ne_backslash_of_hex4 {a b c d : UInt8} {rest rest' : Bytes} {n : Nat}
    (h : Json.hex4 (a :: b :: c :: d :: rest) = some (n, rest')) :
    a ≠ 0x5C ∧ b ≠ 0x5C ∧ c ≠ 0x5C ∧ d ≠ 0x5C := by
  have hno : Json.hexValue 0x5C = none := by decide
  refine ⟨?_, ?_, ?_, ?_⟩ <;> rintro rfl <;>
    simp [Json.hex4, hno] at h

theorem length_utf8Tail (k c : Nat) : (utf8Tail k c).1.length = k := by
  induction k generalizing c with
  | zero => rfl
  | succ k ih => simp [utf8Tail, ih]

theorem length_utf8Bytes (k mark c : Nat) : (utf8Bytes (k + 1) mark c).length = k + 1 := by
  simp [utf8Bytes, length_utf8Tail]

theorem length_encodeUtf8 {c : Nat} {bytes : Bytes} (h : encodeUtf8 c = some bytes) :
    bytes.length ≤ 4 ∧ (c < 0x10000 → bytes.length ≤ 3) ∧ (c < 0x80 → bytes.length = 1) := by
  unfold encodeUtf8 at h
  split at h
  · cases h
    exact ⟨by simp, fun _ => by simp, fun _ => rfl⟩
  split at h
  · cases h
    rw [length_utf8Bytes]
    omega
  split at h
  · cases h
    rw [length_utf8Bytes]
    omega
  split at h
  · cases h
    rw [length_utf8Bytes]
    omega
  · cases h

/-- Six characters of the text, from a position. -/
theorem span_six {content : Bytes} {e : Nat} (p : Nat) (h : p + 6 ≤ e) (he : e ≤ content.length) :
    ∃ x y a b c d, content[p]? = some x ∧ content[p + 1]? = some y ∧
      content[p + 2]? = some a ∧ content[p + 3]? = some b ∧ content[p + 4]? = some c ∧
      content[p + 5]? = some d ∧
      span content p e = x :: y :: a :: b :: c :: d :: span content (p + 6) e := by
  have hget : ∀ i, i < e → ∃ x, content[i]? = some x := by
    intro i hi
    exact ⟨_, List.getElem?_eq_getElem (by omega : i < content.length)⟩
  obtain ⟨x, hx⟩ := hget p (by omega)
  obtain ⟨y, hy⟩ := hget (p + 1) (by omega)
  obtain ⟨a, ha⟩ := hget (p + 2) (by omega)
  obtain ⟨b, hb⟩ := hget (p + 3) (by omega)
  obtain ⟨c, hc⟩ := hget (p + 4) (by omega)
  obtain ⟨d, hd⟩ := hget (p + 5) (by omega)
  refine ⟨x, y, a, b, c, d, hx, hy, ha, hb, hc, hd, ?_⟩
  rw [span_cons hx (by omega), span_cons hy (by omega), span_cons ha (by omega),
    span_cons hb (by omega), span_cons hc (by omega), span_cons hd (by omega)]

/-- What four characters behind `\u` cost: nothing is known of a code below 128, and the digits of
    any other are four tokens. -/
theorem Room.drop_literal {x a b c d : UInt8} {rest : Bytes} {n : Nat}
    (h : Room (0x5C :: x :: a :: b :: c :: d :: rest) n) :
    ∃ m, Room rest m ∧ m + 1 ≤ n ∧
      (∀ code rest', Json.hex4 (a :: b :: c :: d :: rest) = some (code, rest') → m + 5 ≤ n) := by
  obtain ⟨m₁, h₁, hlt₁⟩ := h.drop_escape
  obtain ⟨m, hm, hle, hlt⟩ := h₁.drop_four
  refine ⟨m, hm, by omega, fun code rest' hcode => ?_⟩
  obtain ⟨ha, hb, hc, hd⟩ := ne_backslash_of_hex4 hcode
  have := hlt ha hb hc hd
  omega

section
variable {o d l : Nat} {content : Bytes}

/-- `parse_hex4` reads its four characters and leaves the buffer alone. -/
theorem parseHex4_safe {a b c e : UInt8} {i : Nat} (ha : content[i]? = some a)
    (hb : content[i + 1]? = some b) (hc : content[i + 2]? = some c)
    (he : content[i + 3]? = some e) (rest : Bytes) :
    Safe o d l (parseHex4 content i) fun r s =>
      r = ((Json.hex4 (a :: b :: c :: e :: rest)).map Prod.fst).getD 0 ∧ At o d l s := by
  intro s hs
  rw [parseHex4_eq ha hb hc he rest]
  exact ⟨rfl, hs⟩

/-- A code that is not zero has been read from digits. -/
theorem hex4_of_code {bs : Bytes} (h : ((Json.hex4 bs).map Prod.fst).getD 0 ≠ 0) :
    ∃ rest, Json.hex4 bs = some (((Json.hex4 bs).map Prod.fst).getD 0, rest) ∧
      ((Json.hex4 bs).map Prod.fst).getD 0 < 0x10000 := by
  cases hcode : Json.hex4 bs with
  | none =>
    rw [hcode] at h
    exact absurd rfl h
  | some r =>
    obtain ⟨code, rest⟩ := r
    exact ⟨rest, rfl, (Json.hex4_spec hcode).1⟩

/-- A literal stays inside the string, and what it writes fits into the room of what it reads. -/
def LiteralFits (content : Bytes) (p e n : Nat) (r : Option (Bytes × Nat)) : Prop :=
  ∀ bytes k, r = some (bytes, k) →
    0 < k ∧ p + k ≤ e ∧ ∃ m, Room (span content (p + k) e) m ∧ bytes.length + m ≤ n

theorem literalFits_none {p e n : Nat} : LiteralFits content p e n none := nofun

/-- The second half of a pair: with its five tokens there is room for the four bytes. -/
theorem utf16Pair_safe {p e first n m : Nat} (he : e ≤ content.length)
    (hm : Room (span content (p + 6) e) m) (hle : m + 5 ≤ n) :
    Safe o d l (utf16Pair content (p + 6) e first) fun r s =>
      LiteralFits content p e n r ∧ At o d l s := by
  unfold utf16Pair
  split
  · exact Safe.ret fun s hs => ⟨literalFits_none, hs⟩
  rename_i hmore
  obtain ⟨x, y, a, b, c, f, hx, hy, ha, hb, hc, hf, hspan⟩ :=
    span_six (p + 6) (by omega) he
  rw [hspan] at hm
  refine Safe.bind_fact (readAt_safe (by omega)) fun backslash hbackslash => ?_
  split
  · exact Safe.ret fun s hs => ⟨literalFits_none, hs⟩
  rename_i hslash
  have hx5c : x = 0x5C := by
    rw [hx] at hbackslash
    rw [Option.some.inj hbackslash]
    exact not_not.mp hslash
  subst hx5c
  obtain ⟨m', hm', hlt, -⟩ := hm.drop_literal
  refine Safe.bind_fact (readAt_safe (by omega)) fun u _ => ?_
  split
  · exact Safe.ret fun s hs => ⟨literalFits_none, hs⟩
  refine Safe.bind_fact (parseHex4_safe ha hb hc hf (span content (p + 12) e)) fun second _ => ?_
  split
  · exact Safe.ret fun s hs => ⟨literalFits_none, hs⟩
  refine Safe.ret fun s hs => ⟨fun bytes k hr => ?_, hs⟩
  obtain ⟨bytes', hbytes, hpair⟩ := Option.map_eq_some_iff.mp hr
  obtain ⟨rfl, rfl⟩ := Prod.mk.inj hpair
  refine ⟨by decide, by omega, m', hm', ?_⟩
  have := (length_encodeUtf8 hbytes).1
  omega

theorem utf16LiteralToUtf8_safe {p e : Nat} (he : e ≤ content.length)
    (hp : content[p]? = some 0x5C) {n : Nat} (hn : Room (span content p e) n) :
    Safe o d l (utf16LiteralToUtf8 content p e) fun r s =>
      LiteralFits content p e n r ∧ At o d l s := by
  unfold utf16LiteralToUtf8
  split
  · exact Safe.ret fun s hs => ⟨literalFits_none, hs⟩
  rename_i hsix
  obtain ⟨x, y, a, b, c, f, hx, hy, ha, hb, hc, hf, hspan⟩ :=
    span_six p (by omega) he
  have hx5c : x = 0x5C := by
    rw [hp] at hx
    exact (Option.some.inj hx).symm
  subst hx5c
  rw [hspan] at hn
  obtain ⟨m, hm, hlt, hdigits⟩ := hn.drop_literal
  refine Safe.bind_fact (parseHex4_safe ha hb hc hf (span content (p + 6) e))
    fun first hfirst => ?_
  -- a code other than zero has been read from four digits
  have hcode : first ≠ 0 → m + 5 ≤ n ∧ first < 0x10000 := by
    intro hne
    rw [hfirst] at hne ⊢
    obtain ⟨rest, hrest, hbound⟩ := hex4_of_code hne
    exact ⟨hdigits _ _ hrest, hbound⟩
  split
  · exact Safe.ret fun s hs => ⟨literalFits_none, hs⟩
  split
  · exact utf16Pair_safe he hm (hcode (by omega)).1
  refine Safe.ret fun s hs => ⟨fun bytes k hr => ?_, hs⟩
  obtain ⟨bytes', hbytes, hpair⟩ := Option.map_eq_some_iff.mp hr
  obtain ⟨rfl, rfl⟩ := Prod.mk.inj hpair
  refine ⟨by decide, by omega, m, hm, ?_⟩
  obtain ⟨-, hthree, hone⟩ := length_encodeUtf8 hbytes
  by_cases hzero : first = 0
  · have := hone (by omega)
    omega
  · obtain ⟨hroom, hbound⟩ := hcode hzero
    have := hthree hbound
    omega

end

/-! ## `parse_string` -/

section
variable {o d l : Nat} {content : Bytes} {grants : Nat → Bool}

/-- The first loop finds a quote inside the text, and counts the tokens before it. -/
theorem scanString_safe : ∀ {rounds i k : Nat}, content.length < rounds + i →
    i ≤ content.length →
    Safe o d l (scanString content rounds i k) fun r s =>
      (∀ e k', r = some (e, k') → i ≤ e ∧ e < content.length ∧
        k' + tokens (span content i e) = k + (e - i)) ∧ At o d l s := by
  intro rounds
  induction rounds with
  | zero =>
    intro i k h hle
    omega
  | succ rounds ih =>
    intro i k h hle
    unfold scanString
    split
    case isFalse => exact Safe.ret fun s hs => ⟨nofun, hs⟩
    case isTrue hi =>
      refine Safe.bind_fact (readAt_safe hi) fun b hb => ?_
      split
      · refine Safe.ret fun s hs => ⟨fun e k' hr => ?_, hs⟩
        obtain ⟨rfl, rfl⟩ := Prod.mk.inj (Option.some.inj hr)
        refine ⟨Nat.le_refl _, hi, ?_⟩
        rw [span_nil (Nat.le_refl _), tokens]
        omega
      split
      · rename_i hslash
        split
        · exact Safe.ret fun s hs => ⟨nofun, hs⟩
        refine Triple.post (ih (by omega) (by omega)) fun r s hr => ⟨fun e k' hrk => ?_, hr.2⟩
        obtain ⟨hle, hlt, htokens⟩ := hr.1 e k' hrk
        obtain ⟨c, hc⟩ : ∃ c, content[i + 1]? = some c :=
          ⟨_, List.getElem?_eq_getElem (by omega : i + 1 < content.length)⟩
        refine ⟨by omega, hlt, ?_⟩
        have hspan : span content i e = b :: c :: span content (i + 2) e := by
          rw [span_cons hb (by omega), span_cons hc (by omega)]
        rw [hspan, hslash, tokens_escape]
        omega
      · rename_i hslash
        refine Triple.post (ih (by omega) (by omega)) fun r s hr => ⟨fun e k' hrk => ?_, hr.2⟩
        obtain ⟨hle, hlt, htokens⟩ := hr.1 e k' hrk
        refine ⟨by omega, hlt, ?_⟩
        rw [span_cons hb (by omega), tokens_cons hslash]
        omega

/-- The second loop fills its block at most up to the last byte, wherever the two loops have come
    apart. -/
theorem unescapeString_safe {e capacity : Nat} (he : e < content.length) :
    ∀ {rounds p n : Nat} {output : Bytes}, e + 1 < rounds + p → p ≤ e + 1 →
      Room (span content p e) n → output.length + n < capacity →
    Safe o d l (unescapeString content e capacity rounds p output) fun r s =>
      ((∀ q, r = .error q → q ≤ content.length) ∧
        ∀ out, r = .ok out → out.length < capacity) ∧ At o d l s := by
  intro rounds
  induction rounds with
  | zero =>
    intro p n output hrounds hp
    omega
  | succ rounds ih =>
    intro p n output hrounds hp hn hout
    unfold unescapeString
    split
    case isFalse =>
      refine Safe.ret fun s hs => ⟨⟨nofun, fun out hout' => ?_⟩, hs⟩
      cases hout'
      omega
    case isTrue hlt =>
      refine Safe.bind_fact (readAt_safe (by omega)) fun b hb => ?_
      rw [span_cons hb hlt] at hn
      split
      · -- a plain character, or the partner of a backslash already read
        rename_i hslash
        obtain ⟨m, hm, -, hless⟩ := hn.drop_one
        have := hless hslash
        have hlen : (output ++ [b]).length = output.length + 1 := List.length_append
        refine Safe.bind_fact (store_safe (by simp only [List.length_singleton]; omega)) ?_
        rintro out rfl
        exact ih (by omega) (by omega) hm (by omega)
      rename_i hslash
      have hb5c : b = 0x5C := not_not.mp hslash
      subst hb5c
      refine Safe.bind_fact (readAt_safe (by omega)) fun c hc => ?_
      -- what is left behind the two characters, if they are inside the string at all
      have hnext : ∃ m, Room (span content (p + 2) e) m ∧ m + 1 ≤ n := by
        rcases Nat.lt_or_ge (p + 1) e with hin | hout'
        · rw [span_cons hc hin] at hn
          exact hn.drop_escape
        · rw [span_nil hout'] at hn
          refine ⟨0, ?_, by rw [hn.last]⟩
          rw [span_nil (by omega)]
          exact Room.aligned []
      split
      · rename_i x hx
        obtain ⟨m, hm, hless⟩ := hnext
        have hlen : (output ++ [x]).length = output.length + 1 := List.length_append
        refine Safe.bind_fact (store_safe (by simp only [List.length_singleton]; omega)) ?_
        rintro out rfl
        exact ih (by omega) (by omega) hm (by omega)
      split
      · rw [← span_cons hb hlt] at hn
        refine Safe.bind_fact (utf16LiteralToUtf8_safe (by omega) hb hn) fun r hr => ?_
        split
        · rename_i bytes k
          obtain ⟨hk, hke, m, hm, hless⟩ := hr bytes k rfl
          have hlen : (output ++ bytes).length = output.length + bytes.length := List.length_append
          refine Safe.bind_fact (store_safe (by omega)) ?_
          rintro out rfl
          exact ih (by omega) (by omega) hm (by omega)
        · refine Safe.ret fun s hs => ⟨⟨fun q hq => ?_, nofun⟩, hs⟩
          cases hq
          omega
      · refine Safe.ret fun s hs => ⟨⟨fun q hq => ?_, nofun⟩, hs⟩
        cases hq
        omega

/-- What a parse function leaves: with no result the blocks it has been given, and with one that
    many, behind what it has read and at the depth it was called at. A list ends before its closing
    character, so it has a byte of `slack`. -/
def Parsed {α : Type} (length slack o d l : Nat) (live : α → Nat) (r : Option α)
    (s : ParseBuffer) : Prop :=
  match r with
  | none => s.offset ≤ length ∧ s.live = l
  | some a => o < s.offset ∧ s.offset + slack ≤ length ∧ s.depth = d ∧ s.live = live a

theorem failAt_safe {α : Type} {p : Nat} (hp : p ≤ content.length) (o' d' : Nat)
    (live : α → Nat) :
    Safe o d l (failAt p : Parse (Option α)) (Parsed content.length 0 o' d' l live) := by
  refine Triple.bind (moveTo_safe p) fun _ => Triple.pure fun s hs => ?_
  exact ⟨hs.offset_eq ▸ hp, hs.live_eq⟩

theorem parseString_safe (ho : o < content.length) :
    Safe o d l (parseString content grants)
      (Parsed content.length 0 o d l fun _ => l + 1) := by
  unfold parseString
  refine Safe.get_bind fun s hs => ?_
  rw [hs.offset_eq]
  refine Safe.bind_fact (readAt_safe ho) fun b _ => ?_
  split
  · exact failAt_safe ho o d _
  refine Safe.bind_fact (scanString_safe (by omega) ho) fun r hr => ?_
  split
  · exact failAt_safe ho o d _
  rename_i e k
  obtain ⟨hle, hlt, htokens⟩ := hr e k rfl
  refine Triple.bind allocate_safe fun granted => ?_
  cases granted with
  | false => exact failAt_safe ho o d _
  | true =>
    simp only [if_true]
    -- the block has one byte for each token, one for the opening quote and one for the NUL
    refine Safe.bind_fact (unescapeString_safe hlt (by omega) (by omega) (.aligned _)
      (by simp only [List.length_nil]; omega)) fun r hr => ?_
    obtain ⟨herror, hok⟩ := hr
    split
    · rename_i q
      refine Triple.bind (release_safe (by omega)) fun _ => ?_
      rw [Nat.add_sub_cancel]
      exact failAt_safe (herror q rfl) o d _
    · rename_i output
      have hroom := hok output rfl
      refine Safe.bind_fact (store_safe (by simp only [List.length_singleton]; omega))
        fun _ _ => ?_
      refine Triple.bind (moveTo_safe (e + 1)) fun _ => Triple.pure fun s hs => ?_
      refine ⟨?_, ?_, hs.depth_eq, hs.live_eq⟩
      · rw [hs.offset_eq]
        omega
      · rw [hs.offset_eq]
        exact hlt

end

/-! ## Numbers -/

/-- A sign is a character of the text. -/
theorem sign_le (bs : Bytes) :
    (if bs.head? = some 0x2D ∨ bs.head? = some 0x2B then 1 else 0) ≤ bs.length := by
  cases bs with
  | nil => simp
  | cons b bs =>
    rw [List.length_cons]
    split <;> omega

theorem strtodExponent_le (bs : Bytes) : (strtodExponent bs).2 ≤ bs.length := by
  cases bs with
  | nil => exact Nat.le_refl 0
  | cons b bs =>
    have hsign := sign_le bs
    simp only [strtodExponent]
    generalize (if bs.head? = some 0x2D ∨ bs.head? = some 0x2B then 1 else 0) = sign at hsign ⊢
    have hds := takeWhile_length_le Json.isDigit (bs.drop sign)
    rw [List.length_drop] at hds
    split
    case isFalse => exact Nat.zero_le _
    case isTrue =>
      split
      · exact Nat.zero_le _
      · simp only [List.length_cons]
        omega

/-- `strtod` reads something, and nothing behind its text. -/
theorem strtod_length {text : Bytes} {q : ℚ} {n : Nat} (h : strtod text = some (q, n)) :
    0 < n ∧ n ≤ text.length := by
  have hsign := sign_le text
  unfold strtod at h
  simp only at h
  generalize hs : (if text.head? = some 0x2D ∨ text.head? = some 0x2B then 1 else 0) = sign
    at h hsign
  generalize hi : (text.drop sign).takeWhile Json.isDigit = int at h
  have hint : int.length ≤ text.length - sign := by
    rw [← hi, ← List.length_drop]
    exact takeWhile_length_le _ _
  generalize hp : (if (text.drop (sign + int.length)).head? = some 0x2E then 1 else 0) = point
    at h
  have hpoint : point ≤ text.length - (sign + int.length) := by
    rw [← hp, ← List.length_drop]
    cases text.drop (sign + int.length) with
    | nil => simp
    | cons b bs =>
      rw [List.length_cons]
      split <;> omega
  generalize hf : (if point = 1 then
    ((text.drop (sign + int.length)).drop 1).takeWhile Json.isDigit else []) = frac at h
  have hfrac : frac.length ≤ text.length - (sign + int.length) - point := by
    rw [← hf]
    split
    · rename_i hone
      rw [hone, ← List.length_drop, ← List.length_drop]
      exact takeWhile_length_le _ _
    · exact Nat.zero_le _
  split at h
  · cases h
  · rename_i hdigits
    obtain ⟨-, rfl⟩ := Prod.mk.inj (Option.some.inj h)
    have hexp := strtodExponent_le (text.drop (sign + int.length + point + frac.length))
    rw [List.length_drop] at hexp
    have hpos : 0 < int.length ∨ 0 < frac.length := by
      by_contra hno
      rw [not_or, Nat.not_lt, Nat.not_lt, Nat.le_zero, Nat.le_zero] at hno
      exact hdigits ⟨List.eq_nil_of_length_eq_zero hno.1, List.eq_nil_of_length_eq_zero hno.2⟩
    omega

/-! ## Values -/

section
variable {V : Type}

theorem itemBlocks_append (vs : List (Json V)) (v : Json V) :
    itemBlocks (vs ++ [v]) = itemBlocks vs + blocks v := by
  induction vs with
  | nil => simp [itemBlocks]
  | cons w vs ih => simp only [List.cons_append, itemBlocks, ih, Nat.add_assoc]

theorem memberBlocks_append (ms : List (Bytes × Json V)) (m : Bytes × Json V) :
    memberBlocks (ms ++ [m]) = memberBlocks ms + (1 + blocks m.2) := by
  induction ms with
  | nil => simp [memberBlocks]
  | cons w ms ih => simp only [List.cons_append, memberBlocks, ih, Nat.add_assoc]

end

section
variable {V : Type} {round : ℚ → V} {content : Bytes} {grants : Nat → Bool} {o d l : Nat}

theorem parseNumber_safe (ho : o ≤ content.length) :
    Safe o d (l + 1) (parseNumber content round)
      (Parsed content.length 0 o d (l + 1) fun v => l + blocks v) := by
  unfold parseNumber
  refine Safe.get_bind fun s hs => ?_
  rw [hs.offset_eq]
  split
  · refine Triple.pure fun s hs => ⟨?_, hs.live_eq⟩
    rw [hs.offset_eq]
    exact ho
  · rename_i q n hq
    obtain ⟨hpos, hle⟩ := strtod_length hq
    have htext := takeWhile_length_le isNumberChar ((content.drop o).take 63)
    rw [List.length_take, List.length_drop] at htext
    refine Triple.bind (moveTo_safe (o + n)) fun _ => Triple.pure fun s hs => ?_
    refine ⟨?_, ?_, hs.depth_eq, hs.live_eq⟩
    · rw [hs.offset_eq]
      omega
    · rw [hs.offset_eq]
      omega

/-- A value at any offset, at a given depth; the item it goes into is allocated already. -/
def ValueSafe (content : Bytes) (d : Nat) (value : Parse (Option (Json V))) : Prop :=
  ∀ o l, o ≤ content.length →
    Safe o d (l + 1) value (Parsed content.length 0 o d (l + 1) fun v => l + blocks v)

/-- `goto fail`: the blocks that have come on top are freed again. -/
theorem giveUp_safe {α : Type} {n base : Nat} (hl : l = base + n) (ho : o ≤ content.length)
    (slack o' d' : Nat) (live : α → Nat) :
    Safe o d l (release n >>= fun _ => pure (none : Option α))
      (Parsed content.length slack o' d' base live) := by
  refine Triple.bind (release_safe (by omega)) fun _ => Triple.pure fun s hs => ⟨?_, ?_⟩
  · rw [hs.offset_eq]
    exact ho
  · rw [hs.live_eq]
    omega

/-- Go on after a parse function, from wherever it has left the buffer. -/
theorem Safe.bind_parsed {α β : Type} {o' d' l' len slack : Nat} {live : α → Nat}
    {x : Parse (Option α)} {f : Option α → Parse β} {R : β → ParseBuffer → Prop}
    (hx : Safe o d l x (Parsed len slack o' d' l' live))
    (hnone : ∀ p e, p ≤ len → Safe p e l' (f none) R)
    (hsome : ∀ a p, o' < p → p + slack ≤ len → Safe p d' (live a) (f (some a)) R) :
    Safe o d l (x >>= f) R := by
  refine Triple.bind_at hx fun r s h => ?_
  cases r with
  | none => exact (hnone s.offset s.depth h.1).starting ⟨rfl, rfl, h.2⟩
  | some a => exact (hsome a s.offset h.1 h.2.1).starting ⟨rfl, h.2.2.1, h.2.2.2⟩

/-- The loop of `parse_array`: it moves on with every item, so it has rounds enough. -/
theorem parseItems_safe {value : Parse (Option (Json V))} (hvalue : ValueSafe content d value)
    (base : Nat) : ∀ {rounds o : Nat} (head : List (Json V)), o < content.length →
      content.length ≤ rounds + o →
      Safe o d (base + itemBlocks head) (parseItems content grants value rounds head)
        (Parsed content.length 1 o d base fun vs => base + itemBlocks vs) := by
  intro rounds
  induction rounds with
  | zero =>
    intro o head ho hrounds
    omega
  | succ rounds ih =>
    intro o head ho hrounds
    unfold parseItems
    refine Triple.bind allocate_safe fun granted => ?_
    cases granted with
    | false => exact giveUp_safe rfl (Nat.le_of_lt ho) _ _ _ _
    | true =>
      simp only [if_true]
      have hmove : Safe o d (base + itemBlocks head + 1)
          (Prog.modify fun s : ParseBuffer => { s with offset := s.offset + 1 })
          fun _ => At (o + 1) d (base + itemBlocks head + 1) := by
        refine Triple.modify fun s hs => ⟨?_, hs.depth_eq, hs.live_eq⟩
        rw [hs.offset_eq]
      refine Triple.bind hmove fun _ => ?_
      refine Triple.bind skip_safe fun _ => ?_
      have hskip := le_skipFrom content (o + 1)
      refine Safe.bind_parsed (hvalue _ _ (skipFrom_le ho)) ?_ ?_
      · intro p e hp
        exact giveUp_safe (Nat.add_assoc _ _ _) hp _ _ _ _
      · intro v p hlt hp
        rw [Nat.add_zero] at hp
        simp only
        refine Triple.bind skip_safe fun _ => ?_
        have hskip' := le_skipFrom content p
        refine Safe.get_bind fun s hs => ?_
        rw [hs.offset_eq, Nat.add_assoc, ← itemBlocks_append]
        split
        · rename_i hcomma
          obtain ⟨hin, -⟩ := List.getElem?_eq_some_iff.mp hcomma
          refine Triple.post (ih _ hin (by omega)) fun r s hr => ?_
          cases r with
          | none => exact hr
          | some vs => exact ⟨by have := hr.1; omega, hr.2⟩
        split
        · rename_i hclosing
          obtain ⟨hin, -⟩ := List.getElem?_eq_some_iff.mp hclosing
          refine Triple.pure fun s hs => ⟨?_, ?_, hs.depth_eq, hs.live_eq⟩
          · rw [hs.offset_eq]
            omega
          · rw [hs.offset_eq]
            exact hin
        · exact giveUp_safe rfl (skipFrom_le hp) _ _ _ _

/-- The loop of `parse_object`: a member has its block, then its name, then its value. -/
theorem parseMembers_safe {value : Parse (Option (Json V))} (hvalue : ValueSafe content d value)
    (base : Nat) : ∀ {rounds o : Nat} (head : List (Bytes × Json V)), o < content.length →
      content.length ≤ rounds + o →
      Safe o d (base + memberBlocks head) (parseMembers content grants value rounds head)
        (Parsed content.length 1 o d base fun ms => base + memberBlocks ms) := by
  intro rounds
  induction rounds with
  | zero =>
    intro o head ho hrounds
    omega
  | succ rounds ih =>
    intro o head ho hrounds
    unfold parseMembers
    refine Triple.bind allocate_safe fun granted => ?_
    cases granted with
    | false => exact giveUp_safe rfl (Nat.le_of_lt ho) _ _ _ _
    | true =>
      simp only [if_true]
      refine Safe.get_bind fun s hs => ?_
      rw [hs.offset_eq]
      split
      case isFalse => exact giveUp_safe (Nat.add_assoc _ _ _) (Nat.le_of_lt ho) _ _ _ _
      case isTrue hnext =>
        refine Triple.bind (moveTo_safe (o + 1)) fun _ => ?_
        refine Triple.bind skip_safe fun _ => ?_
        have hskip := le_skipFrom content (o + 1)
        refine Safe.bind_parsed (parseString_safe (skipFrom_lt hnext)) ?_ ?_
        · intro p e hp
          exact giveUp_safe (Nat.add_assoc _ _ _) hp _ _ _ _
        · intro key p hlt hp
          rw [Nat.add_zero] at hp
          simp only
          refine Triple.bind skip_safe fun _ => ?_
          have hskip' := le_skipFrom content p
          refine Safe.get_bind fun s hs => ?_
          rw [hs.offset_eq]
          split
          case isFalse => exact giveUp_safe (by omega) (skipFrom_le hp) _ _ _ _
          case isTrue hcolon =>
            obtain ⟨hin, -⟩ := List.getElem?_eq_some_iff.mp hcolon
            refine Triple.bind (moveTo_safe _) fun _ => ?_
            refine Triple.bind skip_safe fun _ => ?_
            have hskip₂ := le_skipFrom content (skipFrom content p + 1)
            refine Safe.bind_parsed (hvalue _ _ (skipFrom_le hin)) ?_ ?_
            · intro q e hq
              exact giveUp_safe (by omega) hq _ _ _ _
            · intro v q hlt' hq
              rw [Nat.add_zero] at hq
              simp only
              refine Triple.bind skip_safe fun _ => ?_
              have hskip₃ := le_skipFrom content q
              refine Safe.get_bind fun s hs => ?_
              have hlive : base + memberBlocks head + 1 + blocks v =
                  base + memberBlocks (head ++ [(key, v)]) := by
                simp only [memberBlocks_append]
                omega
              rw [hs.offset_eq, hlive]
              split
              · rename_i hcomma
                obtain ⟨hin', -⟩ := List.getElem?_eq_some_iff.mp hcomma
                refine Triple.post (ih _ hin' (by omega)) fun r s hr => ?_
                cases r with
                | none => exact hr
                | some ms => exact ⟨by have := hr.1; omega, hr.2⟩
              split
              · rename_i hclosing
                obtain ⟨hin', -⟩ := List.getElem?_eq_some_iff.mp hclosing
                refine Triple.pure fun s hs => ⟨?_, ?_, hs.depth_eq, hs.live_eq⟩
                · rw [hs.offset_eq]
                  omega
                · rw [hs.offset_eq]
                  exact hin'
              · exact giveUp_safe rfl (skipFrom_le hq) _ _ _ _

/-- `parse_array` and `parse_object`, over a loop that is safe one level deeper. -/
theorem parseNested_safe {α : Type} {opening closing : UInt8} {children : Parse (Option (List α))}
    {make : List α → Json V} {count : List α → Nat} (hmake : ∀ list, blocks (make list) =
      1 + count list) (hempty : count [] = 0) (ho : o < content.length)
    (hchildren : d < nestingLimit → ∀ p, p < content.length →
      Safe p (d + 1) (l + 1) children
        (Parsed content.length 1 p (d + 1) (l + 1) fun list => l + 1 + count list)) :
    Safe o d (l + 1) (parseNested content opening closing children make)
      (Parsed content.length 0 o d (l + 1) fun v => l + blocks v) := by
  unfold parseNested
  refine Safe.get_bind fun s hs => ?_
  rw [hs.offset_eq, hs.depth_eq]
  have hfail : ∀ p e, p ≤ content.length → Safe p e (l + 1) (pure none : Parse (Option (Json V)))
      (Parsed content.length 0 o d (l + 1) fun v => l + blocks v) := by
    intro p e hp
    refine Triple.pure fun s hs => ⟨?_, hs.live_eq⟩
    rw [hs.offset_eq]
    exact hp
  have hend : ∀ p list, o < p + 1 → p < content.length →
      Safe p (d + 1) (l + 1 + count list)
        ((Prog.modify fun s : ParseBuffer =>
          { s with depth := s.depth - 1, offset := s.offset + 1 }) >>= fun _ =>
            pure (some (make list)))
        (Parsed content.length 0 o d (l + 1) fun v => l + blocks v) := by
    intro p list hlt hp
    refine Triple.bind (Q := fun _ => At (p + 1) d (l + 1 + count list)) ?_ ?_
    · refine Triple.modify fun s hs => ⟨?_, ?_, hs.live_eq⟩
      · rw [hs.offset_eq]
      · rw [hs.depth_eq, Nat.add_sub_cancel]
    · intro _
      refine Triple.pure fun s hs => ⟨?_, ?_, hs.depth_eq, ?_⟩
      · rw [hs.offset_eq]
        exact hlt
      · rw [hs.offset_eq]
        exact hp
      · simp only [hs.live_eq, hmake, Nat.add_assoc]
  split
  · exact hfail o d (Nat.le_of_lt ho)
  rename_i hdepth
  refine Triple.bind (Q := fun _ => At o (d + 1) (l + 1)) ?_ fun _ => ?_
  · refine Triple.modify fun s hs => ⟨hs.offset_eq, ?_, hs.live_eq⟩
    rw [hs.depth_eq]
  refine Safe.bind_fact (readAt_safe ho) fun b _ => ?_
  split
  · exact hfail o (d + 1) (Nat.le_of_lt ho)
  refine Triple.bind (moveTo_safe (o + 1)) fun _ => ?_
  refine Triple.bind skip_safe fun _ => ?_
  have hskip := le_skipFrom content (o + 1)
  have hskip' : skipFrom content (o + 1) ≤ content.length := skipFrom_le ho
  refine Safe.get_bind fun s hs => ?_
  rw [hs.offset_eq]
  split
  · exact failAt_safe (by omega) o d _
  rename_i b hb
  obtain ⟨hin, -⟩ := List.getElem?_eq_some_iff.mp hb
  split
  · have hnil := hend (skipFrom content (o + 1)) [] (by omega) hin
    rwa [hempty, Nat.add_zero] at hnil
  refine Triple.bind (moveTo_safe _) fun _ => ?_
  refine Safe.bind_parsed (hchildren (Nat.lt_of_not_le hdepth) _ (by omega)) hfail ?_
  intro list p hlt hp
  exact hend p list (by omega) hp

theorem parseLiteral_safe {n : Nat} {v : Json V} (hv : blocks v = 1) (hn : 0 < n)
    (ho : o + n ≤ content.length) :
    Safe o d (l + 1) (parseLiteral n v)
      (Parsed content.length 0 o d (l + 1) fun v => l + blocks v) := by
  refine Triple.bind (Q := fun _ => At (o + n) d (l + 1)) ?_ fun _ => ?_
  · refine Triple.modify fun s hs => ⟨?_, hs.depth_eq, hs.live_eq⟩
    rw [hs.offset_eq]
  · refine Triple.pure fun s hs => ⟨?_, ?_, hs.depth_eq, ?_⟩
    · rw [hs.offset_eq]
      omega
    · rw [hs.offset_eq]
      exact ho
    · simp only [hs.live_eq, hv]

/-- A literal that is there is inside the text. -/
theorem literal_inside {word : Bytes} {n : Nat} (hword : (content.drop o).take n = word)
    (hn : word.length = n) (hpos : 0 < n) : o + n ≤ content.length := by
  have hlen := congrArg List.length hword
  rw [List.length_take, List.length_drop] at hlen
  omega

/-- `parse_value`, with a stack as deep as the nesting limit allows. -/
theorem parseValue_safe : ∀ {levels d : Nat}, d ≤ nestingLimit → nestingLimit < d + levels →
    ValueSafe content d (parseValue content grants round levels) := by
  intro levels
  induction levels with
  | zero =>
    intro d hd hlevels
    omega
  | succ levels ih =>
    intro d hd hlevels o l ho
    unfold parseValue
    refine Safe.get_bind fun s hs => ?_
    rw [hs.offset_eq]
    simp only
    split
    · rename_i hword
      exact parseLiteral_safe rfl (by decide) (literal_inside hword rfl (by decide))
    split
    · rename_i hword
      exact parseLiteral_safe rfl (by decide) (literal_inside hword rfl (by decide))
    split
    · rename_i hword
      exact parseLiteral_safe rfl (by decide) (literal_inside hword rfl (by decide))
    have hrefused : Safe o d (l + 1) (pure none : Parse (Option (Json V)))
        (Parsed content.length 0 o d (l + 1) fun v => l + blocks v) := by
      refine Triple.pure fun s hs => ⟨?_, hs.live_eq⟩
      rw [hs.offset_eq]
      exact ho
    split
    · exact hrefused
    rename_i b hb
    obtain ⟨hin, -⟩ := List.getElem?_eq_some_iff.mp hb
    split
    · -- a string: one block for the item and one for its characters
      refine Triple.bind (parseString_safe hin) fun r => Triple.pure fun s hs => ?_
      cases r with
      | none => exact hs
      | some string => exact hs
    split
    · exact parseNumber_safe ho
    split
    · refine parseNested_safe (fun list => rfl) rfl hin fun hlt p hp => ?_
      exact parseItems_safe (ih hlt (by omega)) (l + 1) [] hp (Nat.le_add_right _ _)
    split
    · refine parseNested_safe (fun list => rfl) rfl hin fun hlt p hp => ?_
      exact parseMembers_safe (ih hlt (by omega)) (l + 1) [] hp (Nat.le_add_right _ _)
    · exact hrefused

/-- `cJSON_ParseWithLengthOpts`: the root is freed again if there is nothing to return. -/
theorem parseWithLength_safe (content : Bytes) (grants : Nat → Bool) (round : ℚ → V) :
    Safe 0 0 0 (parseWithLength content grants round) fun r s =>
      s.offset ≤ content.length ∧ s.live = (r.map blocks).getD 0 := by
  unfold parseWithLength
  refine Triple.bind allocate_safe fun granted => ?_
  cases granted with
  | false =>
    refine Triple.pure fun s hs => ⟨?_, hs.live_eq⟩
    rw [hs.offset_eq]
    exact Nat.zero_le _
  | true =>
    simp only [if_true]
    refine Triple.bind_at (Q := fun _ s => s.offset ≤ content.length ∧ s.depth = 0 ∧
      s.live = 1) ?_ fun _ s hs => ?_
    · refine Triple.modify fun s hs => ?_
      split
      · rename_i hbom
        have := hbom.1
        exact ⟨by simp only; omega, hs.depth_eq, hs.live_eq⟩
      · exact ⟨by rw [hs.offset_eq]; exact Nat.zero_le _, hs.depth_eq, hs.live_eq⟩
    obtain ⟨hoffset, hdepth, hlive⟩ := hs
    refine Triple.starting (P := At s.offset 0 1) ?_ ⟨rfl, hdepth, hlive⟩
    refine Triple.bind skip_safe fun _ => ?_
    refine Safe.bind_parsed
      (parseValue_safe (Nat.zero_le _) (by omega) _ 0 (skipFrom_le hoffset)) ?_ ?_
    · intro p e hp
      refine Triple.bind (release_safe (by omega)) fun _ => Triple.pure fun s hs => ⟨?_, ?_⟩
      · rw [hs.offset_eq]
        exact hp
      · rw [hs.live_eq]
        rfl
    · intro v p hlt hp
      refine Triple.pure fun s hs => ⟨?_, ?_⟩
      · rw [hs.offset_eq]
        exact hp
      · simp [hs.live_eq]

/-- **cJSON is safe on every text.** Whatever the bytes are and whichever requests `malloc`
    refuses: `cJSON_Parse` returns; every byte it reads is in the text and every byte it stores in
    its block; it never calls itself more than once per level of the nesting limit; and the
    blocks that are live when it returns are those of the tree it returns, none if it returns
    `NULL`. -/
theorem cJsonParse_safe (grants : Nat → Bool) (round : ℚ → V) (text : Bytes) :
    ∃ r s, cJsonParse grants round text = (.ok r, s) ∧ s.offset ≤ text.length + 1 ∧
      s.live = (r.map blocks).getD 0 := by
  have hsafe := parseWithLength_safe (text ++ [0]) grants round
  obtain ⟨r, s, hr, hoffset, hlive⟩ := hsafe.exists_result (s := parseStart) ⟨rfl, rfl, rfl⟩
  refine ⟨r, s, Prog.apply_of_result hr, ?_, hlive⟩
  rwa [List.length_append] at hoffset

end

end CJson
end EdgeFlow
