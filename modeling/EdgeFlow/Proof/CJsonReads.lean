import EdgeFlow.Lib.JsonGrammar
import EdgeFlow.Proof.CJsonSafety
import EdgeFlow.Platform.Config

/-!
# cJSON reads every JSON text

`cJsonParse_reads`: a text of the grammar, nested no deeper than the limit and with numbers of at
most 63 characters, is read as the value it spells, whatever stands behind it. The induction is on
the derivation, one lemma for each function of the parser.

That the parser never faults is known (`CJsonSafety`), so the triples here are partial: they say
what a return is, and the two meet at the end.
-/

set_option autoImplicit false

namespace EdgeFlow
namespace CJson

open Lib
open Lib.Json (isDigit digitsValue Blank Chars Numeral Part Spells)

/-! ## Numbers -/

theorem drop_takeWhile_length (p : UInt8 → Bool) (bs : Bytes) :
    bs.drop (bs.takeWhile p).length = bs.dropWhile p := by
  induction bs with
  | nil => rfl
  | cons b bs ih =>
    rw [List.takeWhile_cons, List.dropWhile_cons]
    split
    · exact ih
    · rfl

/-- A fraction as `strtod` finds it. -/
theorem parseFraction_spec {r r' : Bytes} {f : ℚ} (h : Json.parseFraction r = some (f, r')) :
    let point := if r.head? = some 0x2E then 1 else 0
    let frac := if point = 1 then (r.drop 1).takeWhile isDigit else []
    f = (digitsValue frac : ℚ) / 10 ^ frac.length ∧ r' = r.drop (point + frac.length) := by
  cases r with
  | nil =>
    cases h
    exact ⟨by simp [digitsValue], rfl⟩
  | cons b bs =>
    by_cases hb : b = 0x2E
    · subst hb
      simp only [Json.parseFraction, if_true] at h
      split at h
      · cases h
      · obtain ⟨rfl, rfl⟩ := Prod.mk.inj (Option.some.inj h)
        refine ⟨rfl, ?_⟩
        simp only [List.head?_cons, if_true, List.drop_one, List.tail_cons]
        rw [Nat.add_comm, List.drop_succ_cons, drop_takeWhile_length]
    · simp only [Json.parseFraction, if_neg hb] at h
      obtain ⟨rfl, rfl⟩ := Prod.mk.inj (Option.some.inj h)
      have hhead : ¬(b :: bs).head? = some 0x2E := by
        rw [List.head?_cons, Option.some.injEq]
        exact hb
      simp only [if_neg hhead]
      exact ⟨by simp [digitsValue], rfl⟩

theorem parseExponent_spec {r r' : Bytes} {e : ℚ} (h : Json.parseExponent r = some (e, r')) :
    (strtodExponent r).1 = e ∧ r' = r.drop (strtodExponent r).2 := by
  cases r with
  | nil =>
    cases h
    exact ⟨rfl, rfl⟩
  | cons b bs =>
    by_cases hb : b = 0x65 ∨ b = 0x45
    · simp only [Json.parseExponent, if_pos hb] at h
      simp only [strtodExponent, if_pos hb]
      have htail : (if bs.head? = some 0x2D ∨ bs.head? = some 0x2B then bs.tail else bs) =
          bs.drop (if bs.head? = some 0x2D ∨ bs.head? = some 0x2B then 1 else 0) := by
        split
        · exact List.drop_one.symm
        · rfl
      rw [htail] at h
      generalize (if bs.head? = some 0x2D ∨ bs.head? = some 0x2B then 1 else 0) = sign at h ⊢
      split at h
      · cases h
      · rename_i hds
        obtain ⟨rfl, rfl⟩ := Prod.mk.inj (Option.some.inj h)
        rw [if_neg hds]
        refine ⟨rfl, ?_⟩
        rw [← drop_takeWhile_length, List.drop_drop, Nat.add_assoc, Nat.add_comm 1,
          List.drop_succ_cons]
    · simp only [Json.parseExponent, if_neg hb] at h
      obtain ⟨rfl, rfl⟩ := Prod.mk.inj (Option.some.inj h)
      simp only [strtodExponent, if_neg hb]
      exact ⟨trivial, rfl⟩

/-- The sign `strtod` takes is the minus of the grammar. -/
theorem sign_of_parseNumber {t rest : Bytes} {q : ℚ} (h : Json.parseNumber t = some (q, rest)) :
    (if t.head? = some 0x2D ∨ t.head? = some 0x2B then 1 else 0) =
      if t.head? = some 0x2D then 1 else 0 := by
  by_cases hplus : t.head? = some 0x2B
  · -- a plus is no digit
    obtain ⟨u, rfl⟩ : ∃ u, t = 0x2B :: u := by
      cases t with
      | nil => cases hplus
      | cons b u => exact ⟨u, by rw [Option.some.inj hplus]⟩
    have hno : ((0x2B :: u : Bytes).takeWhile isDigit) = [] := by
      rw [List.takeWhile_cons, if_neg (by decide)]
    simp [Json.parseNumber, hno] at h
  · simp [hplus]

/-- `strtod` reads what the grammar reads, at its value and as far. -/
theorem strtod_of_parseNumber {q : ℚ} {t rest : Bytes} (h : Json.parseNumber t = some (q, rest)) :
    ∃ n, strtod t = some (q, n) ∧ rest = t.drop n := by
  have hsign := sign_of_parseNumber h
  unfold Json.parseNumber at h
  unfold strtod
  simp only [hsign]
  have hbody : (if decide (t.head? = some 0x2D) = true then t.tail else t) =
      t.drop (if t.head? = some 0x2D then 1 else 0) := by
    by_cases hneg : t.head? = some 0x2D
    · simp [hneg]
    · simp [hneg]
  simp only [hbody] at h
  generalize (if t.head? = some 0x2D then 1 else 0) = sign at h ⊢
  split at h
  · cases h
  rename_i hds
  rw [not_or] at hds
  obtain ⟨⟨f, r₁⟩, hf, h⟩ := Option.bind_eq_some_iff.mp h
  obtain ⟨⟨e, r₂⟩, he, h⟩ := Option.map_eq_some_iff.mp h
  obtain ⟨rfl, rfl⟩ := Prod.mk.inj h
  generalize hint : (t.drop sign).takeWhile isDigit = int at hds hf ⊢
  have hbehind : t.drop (sign + int.length) = (t.drop sign).dropWhile isDigit := by
    rw [← hint, ← List.drop_drop, drop_takeWhile_length]
  rw [← hbehind] at hf
  have hfrac := parseFraction_spec hf
  simp only at hfrac he ⊢
  generalize (if (t.drop (sign + int.length)).head? = some 0x2E then 1 else 0) = point
    at hfrac ⊢
  generalize (if point = 1 then ((t.drop (sign + int.length)).drop 1).takeWhile isDigit else []) =
    frac at hfrac ⊢
  obtain ⟨rfl, rfl⟩ := hfrac
  obtain ⟨rfl, rfl⟩ := parseExponent_spec he
  rw [List.drop_drop, ← Nat.add_assoc, if_neg (fun hno => hds.1 hno.1)]
  exact ⟨_, rfl, List.drop_drop⟩

/-- **`strtod` takes a numeral whole, at its value.** -/
theorem strtod_numeral {q : ℚ} {t : Bytes} (h : Numeral q t) : strtod t = some (q, t.length) := by
  obtain ⟨n, hn, hrest⟩ := strtod_of_parseNumber h
  have hle := (strtod_length hn).2
  have hge := List.drop_eq_nil_iff.mp hrest.symm
  rw [hn, Nat.le_antisymm hle hge]

/-! The characters of a numeral are those `parse_number` copies. -/

theorem isNumberChar_of_isDigit {b : UInt8} (h : isDigit b = true) : isNumberChar b = true := by
  simp [isNumberChar, h]

theorem isNumberChar_takeWhile {bs : Bytes} {b : UInt8} (h : b ∈ bs.takeWhile isDigit) :
    isNumberChar b = true :=
  isNumberChar_of_isDigit (List.mem_takeWhile_imp h)

theorem parseFraction_chars {r r' : Bytes} {f : ℚ} (h : Json.parseFraction r = some (f, r')) :
    ∃ pre, r = pre ++ r' ∧ ∀ b ∈ pre, isNumberChar b = true := by
  cases r with
  | nil =>
    cases h
    exact ⟨[], rfl, nofun⟩
  | cons b bs =>
    simp only [Json.parseFraction] at h
    split at h
    · rename_i hb
      split at h
      · cases h
      · obtain ⟨-, rfl⟩ := Prod.mk.inj (Option.some.inj h)
        refine ⟨b :: bs.takeWhile isDigit, ?_, ?_⟩
        · rw [List.cons_append, List.takeWhile_append_dropWhile]
        · rw [List.forall_mem_cons]
          refine ⟨?_, fun c hc => isNumberChar_takeWhile hc⟩
          rw [hb]
          decide
    · obtain ⟨-, rfl⟩ := Prod.mk.inj (Option.some.inj h)
      exact ⟨[], rfl, nofun⟩

theorem parseExponent_chars {r r' : Bytes} {e : ℚ} (h : Json.parseExponent r = some (e, r')) :
    ∃ pre, r = pre ++ r' ∧ ∀ b ∈ pre, isNumberChar b = true := by
  cases r with
  | nil =>
    cases h
    exact ⟨[], rfl, nofun⟩
  | cons b bs =>
    simp only [Json.parseExponent] at h
    split at h
    · rename_i hb
      have hbchar : isNumberChar b = true := by
        rcases hb with rfl | rfl <;> decide
      split at h
      · -- a sign before the digits
        rename_i hsign
        split at h
        · cases h
        obtain ⟨-, rfl⟩ := Prod.mk.inj (Option.some.inj h)
        obtain ⟨c, u, rfl, hc⟩ : ∃ c u, bs = c :: u ∧ isNumberChar c = true := by
          cases bs with
          | nil => simp at hsign
          | cons c u =>
            refine ⟨c, u, rfl, ?_⟩
            simp only [List.head?_cons, Option.some.injEq] at hsign
            rcases hsign with rfl | rfl <;> decide
        refine ⟨b :: c :: u.takeWhile isDigit, ?_, ?_⟩
        · simp [List.takeWhile_append_dropWhile]
        · simp only [List.forall_mem_cons]
          exact ⟨hbchar, hc, fun x hx => isNumberChar_takeWhile hx⟩
      · split at h
        · cases h
        obtain ⟨-, rfl⟩ := Prod.mk.inj (Option.some.inj h)
        refine ⟨b :: bs.takeWhile isDigit, ?_, ?_⟩
        · rw [List.cons_append, List.takeWhile_append_dropWhile]
        · rw [List.forall_mem_cons]
          exact ⟨hbchar, fun x hx => isNumberChar_takeWhile hx⟩
    · obtain ⟨-, rfl⟩ := Prod.mk.inj (Option.some.inj h)
      exact ⟨[], rfl, nofun⟩

theorem numeral_chars {q : ℚ} {t : Bytes} (h : Numeral q t) : ∀ b ∈ t, isNumberChar b = true := by
  unfold Numeral Json.parseNumber at h
  simp only at h
  generalize hbody : (if decide (t.head? = some 0x2D) = true then t.tail else t) = body at h
  split at h
  · cases h
  obtain ⟨⟨f, r₁⟩, hf, h⟩ := Option.bind_eq_some_iff.mp h
  obtain ⟨⟨e, r₂⟩, he, h⟩ := Option.map_eq_some_iff.mp h
  obtain ⟨-, rfl⟩ := Prod.mk.inj h
  obtain ⟨pre, hpre, hprechars⟩ := parseFraction_chars hf
  obtain ⟨pre', rfl, hpre'chars⟩ := parseExponent_chars he
  have hbodychars : ∀ b ∈ body, isNumberChar b = true := by
    intro b hb
    rw [← List.takeWhile_append_dropWhile (p := isDigit) (l := body), hpre, List.append_nil,
      List.mem_append, List.mem_append] at hb
    rcases hb with hb | hb | hb
    · exact isNumberChar_takeWhile hb
    · exact hprechars b hb
    · exact hpre'chars b hb
  intro b hb
  split at hbody
  · rename_i hneg
    cases t with
    | nil => cases hb
    | cons c u =>
      rcases List.mem_cons.mp hb with rfl | hb
      · simp only [List.head?_cons, Option.some.injEq, decide_eq_true_eq] at hneg
        rw [hneg]
        decide
      · exact hbodychars b (hbody ▸ hb)
  · exact hbodychars b (hbody ▸ hb)

/-! ## UTF-8 -/

/-- A continuation byte: the low six bits, marked. -/
theorem continuation_bits (c : Nat) : (c ||| 0x80) &&& 0xBF = 0x80 + c % 64 := by
  have hmod : c % 64 = c &&& 63 := (Nat.and_two_pow_sub_one_eq_mod c 6).symm
  have hadd : 0x80 + c % 64 = 0x80 ||| c % 64 :=
    Nat.two_pow_add_eq_or_of_lt (i := 7) (Nat.lt_trans (Nat.mod_lt c (by decide)) (by decide)) 1
  rw [hadd, hmod]
  apply Nat.eq_of_testBit_eq
  intro i
  have hmask : (0xBF : Nat) = 63 ||| 0x80 := by decide
  simp only [hmask, Nat.testBit_or, Nat.testBit_and]
  cases c.testBit i <;> cases Nat.testBit 63 i <;> cases Nat.testBit 0x80 i <;> rfl

/-- The first byte of a sequence, for each of the three marks. -/
theorem first_byte {mark n : Nat} (hmark : mark = 0xC0 ∧ n < 32 ∨ mark = 0xE0 ∧ n < 16 ∨
    mark = 0xF0 ∧ n < 8) : (n ||| mark) &&& 0xFF = mark + n := by
  rcases hmark with ⟨rfl, hn⟩ | ⟨rfl, hn⟩ | ⟨rfl, hn⟩
  · decide +revert
  · decide +revert
  · decide +revert

theorem shiftRight_six (c : Nat) : c >>> 6 = c / 64 := Nat.shiftRight_eq_div_pow c 6

/-- `utf16_literal_to_utf8` encodes as the grammar's strings are encoded. -/
theorem encodeUtf8_eq {c : Nat} (h : c ≤ 0x10FFFF) : encodeUtf8 c = some (Json.utf8Encode c) := by
  unfold encodeUtf8 Json.utf8Encode
  split
  · rename_i hc
    rw [Nat.and_two_pow_sub_one_of_lt_two_pow (n := 7) hc]
  split
  · rename_i hc
    simp only [utf8Bytes, utf8Tail, continuation_bits, shiftRight_six]
    rw [first_byte (by omega)]
    rfl
  split
  · rename_i hc
    simp only [utf8Bytes, utf8Tail, continuation_bits, shiftRight_six, Nat.div_div_eq_div_mul]
    rw [first_byte (by omega)]
    rfl
  simp only [utf8Bytes, utf8Tail, continuation_bits, shiftRight_six, Nat.div_div_eq_div_mul]
  rw [first_byte (by omega)]
  rfl

/-- The code point of a surrogate pair. -/
theorem pair_codepoint {high low : Nat} (hh : 0xD800 ≤ high ∧ high ≤ 0xDBFF)
    (hl : 0xDC00 ≤ low ∧ low ≤ 0xDFFF) :
    0x10000 + (((high &&& 0x3FF) <<< 10) ||| (low &&& 0x3FF)) =
      0x10000 + (high - 0xD800) * 0x400 + (low - 0xDC00) := by
  have hhigh : high &&& 0x3FF = high - 0xD800 := by
    rw [show (0x3FF : Nat) = 2 ^ 10 - 1 from rfl, Nat.and_two_pow_sub_one_eq_mod]
    omega
  have hlow : low &&& 0x3FF = low - 0xDC00 := by
    rw [show (0x3FF : Nat) = 2 ^ 10 - 1 from rfl, Nat.and_two_pow_sub_one_eq_mod]
    omega
  rw [hhigh, hlow, ← Nat.shiftLeft_add_eq_or_of_lt (by omega), Nat.shiftLeft_eq]
  omega

/-! ## Reading from a position -/

section
variable {content : Bytes} {o : Nat}

theorem getElem?_of_drop {b : UInt8} {rest : Bytes} (h : content.drop o = b :: rest) :
    content[o]? = some b := by
  rw [← List.head?_drop, h]
  rfl

theorem drop_append_length {w rest : Bytes} (h : content.drop o = w ++ rest) :
    content.drop (o + w.length) = rest := by
  rw [← List.drop_drop, h, List.drop_left]

theorem drop_succ_of_drop {b : UInt8} {rest : Bytes} (h : content.drop o = b :: rest) :
    content.drop (o + 1) = rest :=
  drop_append_length (w := [b]) h

/-- White space is skipped up to the first character that is none. -/
theorem skipFrom_blank {w rest : Bytes} {c : UInt8} (hw : Blank w) (hc : ¬c ≤ 32)
    (h : content.drop o = w ++ c :: rest) : skipFrom content o = o + w.length := by
  have hlen := congrArg List.length h
  rw [List.length_drop, List.length_append, List.length_cons] at hlen
  have hwhile : (content.drop o).takeWhile (· ≤ 32) = w := by
    rw [h, List.takeWhile_append_of_pos, List.takeWhile_cons, if_neg (by simpa using hc),
      List.append_nil]
    intro b hb
    have hws := hw b hb
    simp only [Json.isWs, decide_eq_true_eq] at hws
    rcases hws with rfl | rfl | rfl | rfl <;> decide
  rw [skipFrom, if_pos (by omega)]
  simp only [hwhile]
  rw [if_neg (by omega)]

end

/-- The buffer is at an offset and a depth. -/
structure Here (offset depth : Nat) (s : ParseBuffer) : Prop where
  offset_eq : s.offset = offset
  depth_eq : s.depth = depth

/-- From there the program, if it returns, returns so. -/
abbrev Reads {α : Type} (o d : Nat) (x : Parse α) (Q : α → ParseBuffer → Prop) : Prop :=
  Triple (Here o d) x Q fun _ _ => True

section
variable {o d o' d' : Nat} {α β : Type} {content : Bytes} {grants : Nat → Bool}

theorem Reads.get_bind {f : ParseBuffer → Parse β} {R : β → ParseBuffer → Prop}
    (h : ∀ s, Here o d s → Reads o d (f s) R) : Reads o d (Prog.get >>= f) R := by
  refine Triple.get_bind fun s hs => ?_
  exact (h s hs).pre fun s' hs' => hs' ▸ hs

/-- Go on with a result that is known. -/
theorem Reads.bind_eq {x : Parse α} {f : α → Parse β} {a : α} {R : β → ParseBuffer → Prop}
    (hx : Reads o d x fun r s => r = a ∧ Here o' d' s) (hf : Reads o' d' (f a) R) :
    Reads o d (x >>= f) R := by
  refine Triple.bind_at hx fun r s h => ?_
  obtain ⟨rfl, hs⟩ := h
  exact hf.starting hs

theorem Reads.ret {a : α} : Reads o d (pure a) fun r s => r = a ∧ Here o d s :=
  Triple.pure fun _ hs => ⟨rfl, hs⟩

theorem readAt_reads {i : Nat} {b : UInt8} (h : content[i]? = some b) :
    Reads o d (readAt content i) fun r s => r = b ∧ Here o d s := by
  rw [readAt, h]
  exact Reads.ret

theorem store_reads {capacity : Nat} {output bytes : Bytes} :
    Reads o d (store capacity output bytes) fun r s => r = output ++ bytes ∧ Here o d s := by
  unfold store
  split
  · exact Reads.ret
  · exact Triple.stop fun _ _ => trivial

theorem allocate_reads (hg : ∀ n, grants n = true) :
    Reads o d (allocate grants) fun r s => r = true ∧ Here o d s := by
  refine Reads.get_bind fun s _ => ?_
  rw [if_pos (hg s.requests)]
  refine Triple.bind (Q := fun _ => Here o d) ?_ fun _ => Reads.ret
  exact Triple.modify fun s hs => ⟨hs.offset_eq, hs.depth_eq⟩

theorem moveTo_reads (p : Nat) : Reads o d (moveTo p) fun r s => r = () ∧ Here p d s :=
  Triple.modify fun _ hs => ⟨rfl, rfl, hs.depth_eq⟩

theorem skip_reads (h : skipFrom content o = o') :
    Reads o d (bufferSkipWhitespace content) fun r s => r = () ∧ Here o' d s := by
  refine Triple.modify fun s hs => ⟨rfl, ?_, hs.depth_eq⟩
  rw [hs.offset_eq]
  exact h

end

/-! ## Strings -/

section
variable {content : Bytes} {o d : Nat}

/-- The first loop, from a position, finds the quote at another. -/
def Scans (content : Bytes) (o d i e : Nat) : Prop :=
  ∀ rounds k, Reads o d (scanString content rounds i k) fun r s =>
    (∃ k', r = some (e, k')) ∧ Here o d s

theorem Scans.quote {i : Nat} (h : content[i]? = some 0x22) : Scans content o d i i := by
  intro rounds k
  cases rounds with
  | zero => exact Triple.stop fun _ _ => trivial
  | succ rounds =>
    obtain ⟨hi, -⟩ := List.getElem?_eq_some_iff.mp h
    rw [scanString, if_pos hi]
    refine Reads.bind_eq (readAt_reads h) ?_
    exact Triple.pure fun s hs => ⟨⟨k, rfl⟩, hs⟩

theorem Scans.plain {i e : Nat} {b : UInt8} (h : content[i]? = some b) (hquote : b ≠ 0x22)
    (hslash : b ≠ 0x5C) (hrest : Scans content o d (i + 1) e) : Scans content o d i e := by
  intro rounds k
  cases rounds with
  | zero => exact Triple.stop fun _ _ => trivial
  | succ rounds =>
    obtain ⟨hi, -⟩ := List.getElem?_eq_some_iff.mp h
    rw [scanString, if_pos hi]
    refine Reads.bind_eq (readAt_reads h) ?_
    rw [if_neg hquote, if_neg hslash]
    exact hrest rounds k

theorem Scans.escape {i e : Nat} {c : UInt8} (h : content[i]? = some 0x5C)
    (hc : content[i + 1]? = some c) (hrest : Scans content o d (i + 2) e) :
    Scans content o d i e := by
  intro rounds k
  cases rounds with
  | zero => exact Triple.stop fun _ _ => trivial
  | succ rounds =>
    obtain ⟨hi, -⟩ := List.getElem?_eq_some_iff.mp h
    obtain ⟨hi', -⟩ := List.getElem?_eq_some_iff.mp hc
    rw [scanString, if_pos hi]
    refine Reads.bind_eq (readAt_reads h) ?_
    rw [if_neg (by decide), if_pos rfl, if_neg (by omega)]
    exact hrest rounds (k + 1)

/-- A hexadecimal digit is neither a quote nor a backslash. -/
theorem hex4_digits {a b c e : UInt8} {code : Nat}
    (h : Json.hex4 [a, b, c, e] = some (code, [])) :
    ∀ x ∈ [a, b, c, e], x ≠ 0x22 ∧ x ≠ 0x5C := by
  have hquote : Json.hexValue 0x22 = none := by decide
  have hslash : Json.hexValue 0x5C = none := by decide
  intro x hx
  simp only [List.mem_cons, List.not_mem_nil, or_false] at hx
  constructor
  · rintro rfl
    rcases hx with rfl | rfl | rfl | rfl <;> simp [Json.hex4, hquote] at h
  · rintro rfl
    rcases hx with rfl | rfl | rfl | rfl <;> simp [Json.hex4, hslash] at h

/-- A run of plain characters. -/
theorem Scans.run {w rest : Bytes} : ∀ {i e : Nat}, content.drop i = w ++ rest →
    (∀ x ∈ w, x ≠ 0x22 ∧ x ≠ 0x5C) → Scans content o d (i + w.length) e →
    Scans content o d i e := by
  induction w with
  | nil =>
    intro i e _ _ hrest
    exact hrest
  | cons b w ih =>
    intro i e h hw hrest
    obtain ⟨hb, hw⟩ := List.forall_mem_cons.mp hw
    refine Scans.plain (getElem?_of_drop h) hb.1 hb.2 (ih (drop_succ_of_drop h) hw ?_)
    rw [List.length_cons, Nat.add_comm w.length, ← Nat.add_assoc] at hrest
    exact hrest

theorem Chars.scans {s t : Bytes} (h : Chars s t) : ∀ {i e : Nat} {rest : Bytes},
    content.drop i = t ++ 0x22 :: rest → e = i + t.length → Scans content o d i e := by
  induction h with
  | nil =>
    intro i e rest hdrop he
    rw [he]
    exact Scans.quote (getElem?_of_drop hdrop)
  | plain hctl hquote hslash h ih =>
    intro i e rest hdrop he
    rw [List.length_cons] at he
    exact Scans.plain (getElem?_of_drop hdrop) hquote hslash
      (ih (drop_succ_of_drop hdrop) (by omega))
  | short hc h ih =>
    intro i e rest hdrop he
    simp only [List.length_cons] at he
    have hdrop' := drop_succ_of_drop hdrop
    exact Scans.escape (getElem?_of_drop hdrop) (getElem?_of_drop hdrop')
      (ih (drop_succ_of_drop hdrop') (by omega))
  | @unit a b c f code s t hcode hlow h ih =>
    intro i e rest hdrop he
    simp only [List.length_cons] at he
    have hdrop' := drop_succ_of_drop hdrop
    have hdigits : content.drop (i + 2) = [a, b, c, f] ++ (t ++ 0x22 :: rest) :=
      drop_succ_of_drop hdrop'
    refine Scans.escape (getElem?_of_drop hdrop) (getElem?_of_drop hdrop') ?_
    refine Scans.run hdigits (hex4_digits hcode) (ih (drop_append_length hdigits) ?_)
    simp only [List.length_cons, List.length_nil]
    omega
  | @pair a b c f a' b' c' f' high low s t hhigh hh hlow hl h ih =>
    intro i e rest hdrop he
    simp only [List.length_cons] at he
    have hdrop' := drop_succ_of_drop hdrop
    have hdigits : content.drop (i + 2) = [a, b, c, f] ++
        (0x5C :: 0x75 :: a' :: b' :: c' :: f' :: t ++ 0x22 :: rest) := drop_succ_of_drop hdrop'
    have hslash : content.drop (i + 6) =
        0x5C :: 0x75 :: a' :: b' :: c' :: f' :: t ++ 0x22 :: rest := drop_append_length hdigits
    have hu := drop_succ_of_drop hslash
    have hdigits' : content.drop (i + 8) = [a', b', c', f'] ++ (t ++ 0x22 :: rest) :=
      drop_succ_of_drop hu
    refine Scans.escape (getElem?_of_drop hdrop) (getElem?_of_drop hdrop') ?_
    refine Scans.run hdigits (hex4_digits hhigh) ?_
    refine Scans.escape (getElem?_of_drop hslash) (getElem?_of_drop hu) ?_
    refine Scans.run hdigits' (hex4_digits hlow) (ih (drop_append_length hdigits') ?_)
    simp only [List.length_cons, List.length_nil]
    omega

/-! The literals behind `\u`. -/

theorem parseHex4_reads {a b c f : UInt8} {code i : Nat} {rest : Bytes}
    (hdrop : content.drop i = [a, b, c, f] ++ rest)
    (hcode : Json.hex4 [a, b, c, f] = some (code, [])) :
    Reads o d (parseHex4 content i) fun r s => r = code ∧ Here o d s := by
  have hb := drop_succ_of_drop hdrop
  have hc := drop_succ_of_drop hb
  have hf := drop_succ_of_drop hc
  intro s hs
  rw [parseHex4_eq (getElem?_of_drop hdrop) (getElem?_of_drop hb) (getElem?_of_drop hc)
    (getElem?_of_drop hf) [], hcode]
  exact ⟨rfl, hs⟩

theorem utf16Literal_unit {a b c f : UInt8} {code p e : Nat} {rest : Bytes}
    (hdrop : content.drop p = 0x5C :: 0x75 :: a :: b :: c :: f :: rest) (he : p + 6 ≤ e)
    (hcode : Json.hex4 [a, b, c, f] = some (code, []))
    (hlow : ¬(0xD800 ≤ code ∧ code ≤ 0xDFFF)) :
    Reads o d (utf16LiteralToUtf8 content p e) fun r s =>
      r = some (Json.utf8Encode code, 6) ∧ Here o d s := by
  have hbound := (Json.hex4_spec hcode).1
  rw [utf16LiteralToUtf8, if_neg (by omega)]
  refine Reads.bind_eq (parseHex4_reads (drop_append_length (w := [0x5C, 0x75]) hdrop) hcode) ?_
  rw [if_neg (by omega), if_neg (by omega), encodeUtf8_eq (by omega)]
  exact Reads.ret

theorem utf16Literal_pair {a b c f a' b' c' f' : UInt8} {high low p e : Nat} {rest : Bytes}
    (hdrop : content.drop p = 0x5C :: 0x75 :: a :: b :: c :: f :: 0x5C :: 0x75 :: a' :: b' :: c' ::
      f' :: rest) (he : p + 12 ≤ e)
    (hhigh : Json.hex4 [a, b, c, f] = some (high, [])) (hh : 0xD800 ≤ high ∧ high ≤ 0xDBFF)
    (hlow : Json.hex4 [a', b', c', f'] = some (low, [])) (hl : 0xDC00 ≤ low ∧ low ≤ 0xDFFF) :
    Reads o d (utf16LiteralToUtf8 content p e) fun r s =>
      r = some (Json.utf8Encode (0x10000 + (high - 0xD800) * 0x400 + (low - 0xDC00)), 12) ∧
        Here o d s := by
  have hsecond : content.drop (p + 6) = 0x5C :: 0x75 :: a' :: b' :: c' :: f' :: rest :=
    drop_append_length (w := [0x5C, 0x75, a, b, c, f]) hdrop
  rw [utf16LiteralToUtf8, if_neg (by omega)]
  refine Reads.bind_eq (parseHex4_reads (drop_append_length (w := [0x5C, 0x75]) hdrop) hhigh) ?_
  rw [if_neg (by omega), if_pos hh, utf16Pair, if_neg (by omega)]
  refine Reads.bind_eq (readAt_reads (getElem?_of_drop hsecond)) ?_
  rw [if_neg (by decide)]
  refine Reads.bind_eq (readAt_reads (getElem?_of_drop (drop_succ_of_drop hsecond))) ?_
  rw [if_neg (by decide)]
  refine Reads.bind_eq
    (parseHex4_reads (drop_append_length (w := [0x5C, 0x75]) hsecond) hlow) ?_
  rw [if_neg (by omega), pair_codepoint hh hl, encodeUtf8_eq (by omega)]
  exact Reads.ret

/-- The second loop, from a position, writes so much more. -/
def Writes (content : Bytes) (o d e capacity p : Nat) (string : Bytes) : Prop :=
  ∀ rounds output, Reads o d (unescapeString content e capacity rounds p output) fun r s =>
    r = .ok (output ++ string) ∧ Here o d s

theorem Chars.writes {s t : Bytes} (h : Chars s t) {capacity : Nat} :
    ∀ {p e : Nat} {rest : Bytes}, content.drop p = t ++ rest → e = p + t.length →
      Writes content o d e capacity p s := by
  induction h with
  | nil =>
    intro p e rest hdrop he rounds output
    cases rounds with
    | zero => exact Triple.stop fun _ _ => trivial
    | succ rounds =>
      rw [unescapeString, if_neg (by rw [he]; exact Nat.lt_irrefl _), List.append_nil]
      exact Reads.ret
  | @plain b s t hctl hquote hslash h ih =>
    intro p e rest hdrop he rounds output
    rw [List.length_cons] at he
    cases rounds with
    | zero => exact Triple.stop fun _ _ => trivial
    | succ rounds =>
      rw [unescapeString, if_pos (by omega)]
      refine Reads.bind_eq (readAt_reads (getElem?_of_drop hdrop)) ?_
      rw [if_pos hslash]
      refine Reads.bind_eq store_reads ?_
      rw [List.append_cons output b s]
      exact ih (drop_succ_of_drop hdrop) (by omega) rounds _
  | @short c x s t hc h ih =>
    intro p e rest hdrop he rounds output
    simp only [List.length_cons] at he
    have hdrop' := drop_succ_of_drop hdrop
    cases rounds with
    | zero => exact Triple.stop fun _ _ => trivial
    | succ rounds =>
      rw [unescapeString, if_pos (by omega)]
      refine Reads.bind_eq (readAt_reads (getElem?_of_drop hdrop)) ?_
      rw [if_neg (by decide)]
      refine Reads.bind_eq (readAt_reads (getElem?_of_drop hdrop')) ?_
      rw [hc]
      refine Reads.bind_eq store_reads ?_
      rw [List.append_cons output x s]
      exact ih (drop_succ_of_drop hdrop') (by omega) rounds _
  | @unit a b c f code s t hcode hlow h ih =>
    intro p e rest hdrop he rounds output
    simp only [List.length_cons] at he
    cases rounds with
    | zero => exact Triple.stop fun _ _ => trivial
    | succ rounds =>
      rw [unescapeString, if_pos (by omega)]
      refine Reads.bind_eq (readAt_reads (getElem?_of_drop hdrop)) ?_
      rw [if_neg (by decide)]
      refine Reads.bind_eq (readAt_reads (getElem?_of_drop (drop_succ_of_drop hdrop))) ?_
      have hu : Json.shortEscape 0x75 = none := by decide
      rw [hu, if_pos rfl]
      refine Reads.bind_eq (utf16Literal_unit hdrop (by omega) hcode hlow) ?_
      refine Reads.bind_eq store_reads ?_
      rw [← List.append_assoc]
      exact ih (drop_append_length (w := [0x5C, 0x75, a, b, c, f]) hdrop)
        (by simp only [List.length_cons, List.length_nil]; omega) rounds _
  | @pair a b c f a' b' c' f' high low s t hhigh hh hlow hl h ih =>
    intro p e rest hdrop he rounds output
    simp only [List.length_cons] at he
    cases rounds with
    | zero => exact Triple.stop fun _ _ => trivial
    | succ rounds =>
      rw [unescapeString, if_pos (by omega)]
      refine Reads.bind_eq (readAt_reads (getElem?_of_drop hdrop)) ?_
      rw [if_neg (by decide)]
      refine Reads.bind_eq (readAt_reads (getElem?_of_drop (drop_succ_of_drop hdrop))) ?_
      have hu : Json.shortEscape 0x75 = none := by decide
      rw [hu, if_pos rfl]
      refine Reads.bind_eq (utf16Literal_pair hdrop (by omega) hhigh hh hlow hl) ?_
      generalize Json.utf8Encode (0x10000 + (high - 0xD800) * 0x400 + (low - 0xDC00)) = bytes
      refine Reads.bind_eq store_reads ?_
      rw [← List.append_assoc]
      exact ih (drop_append_length
        (w := [0x5C, 0x75, a, b, c, f, 0x5C, 0x75, a', b', c', f']) hdrop)
        (by simp only [List.length_cons, List.length_nil]; omega) rounds _

variable {grants : Nat → Bool}

theorem parseString_reads (hg : ∀ n, grants n = true) {s t rest : Bytes} (h : Chars s t)
    (hdrop : content.drop o = 0x22 :: (t ++ 0x22 :: rest)) :
    Reads o d (parseString content grants) fun r st =>
      r = some s ∧ Here (o + t.length + 2) d st := by
  have hinside := drop_succ_of_drop hdrop
  unfold parseString
  refine Reads.get_bind fun st hst => ?_
  rw [hst.offset_eq]
  refine Reads.bind_eq (readAt_reads (getElem?_of_drop hdrop)) ?_
  rw [if_neg (by decide)]
  refine Triple.bind_at (Chars.scans h hinside rfl (content.length + 1) 0) fun r st hr => ?_
  obtain ⟨⟨k, rfl⟩, hst⟩ := hr
  refine Triple.starting ?_ hst
  refine Reads.bind_eq (allocate_reads hg) ?_
  simp only [if_true]
  refine Reads.bind_eq (Chars.writes h hinside rfl _ []) ?_
  refine Reads.bind_eq store_reads ?_
  refine Reads.bind_eq (moveTo_reads _) ?_
  exact Triple.pure fun st hst =>
    ⟨rfl, by rw [hst.offset_eq]; omega, hst.depth_eq⟩

end

/-! ## Values -/

/-- A numeral that `parse_number` has room for. -/
def ShortNumeral (q : ℚ) (t : Bytes) : Prop := Numeral q t ∧ t.length ≤ 63

/-- A number would end here. -/
def Ended (rest : Bytes) : Prop := ∀ b, rest.head? = some b → isNumberChar b = false

theorem ended_blank {w rest : Bytes} {c : UInt8} (hw : Blank w) (hc : isNumberChar c = false) :
    Ended (w ++ c :: rest) := by
  intro b hb
  cases w with
  | nil =>
    cases hb
    exact hc
  | cons x w =>
    have hws := hw x (List.mem_cons_self ..)
    simp only [Json.isWs, decide_eq_true_eq] at hws
    rw [← Option.some.inj hb]
    rcases hws with rfl | rfl | rfl | rfl <;> decide

theorem numeral_head {q : ℚ} {t : Bytes} (h : Numeral q t) :
    ∃ c u, t = c :: u ∧ (c = 0x2D ∨ isDigit c = true) := by
  cases t with
  | nil => simp [Numeral, Json.parseNumber] at h
  | cons c u =>
    refine ⟨c, u, rfl, ?_⟩
    by_contra hno
    rw [not_or] at hno
    simp [Numeral, Json.parseNumber, hno.1, hno.2] at h

/-- What is spelled starts with a character that is no white space, closes nothing and is no part
    of a byte order mark. -/
theorem spells_head {part : Part} {t : Bytes} (h : Spells ShortNumeral part t) :
    ∃ c u, t = c :: u ∧ ¬c ≤ 32 ∧ c ≠ 0x5D ∧ c ≠ 0x7D ∧ c ≠ 0xEF := by
  induction h with
  | number h =>
    obtain ⟨c, u, rfl, hc⟩ := numeral_head h.1
    refine ⟨c, u, rfl, ?_⟩
    rcases hc with rfl | hc
    · decide
    · refine ⟨?_, Json.ne_of_isDigit hc (by decide), Json.ne_of_isDigit hc (by decide),
        Json.ne_of_isDigit hc (by decide)⟩
      simp only [Json.isDigit, decide_eq_true_eq] at hc
      intro hle
      exact absurd (UInt8.le_trans hc.1 hle) (by decide)
  | item h hw ih =>
    obtain ⟨c, u, rfl, hc⟩ := ih
    exact ⟨c, _, rfl, hc⟩
  | items h hw hw' hu ih ihu =>
    obtain ⟨c, u, rfl, hc⟩ := ih
    exact ⟨c, _, rfl, hc⟩
  | _ => exact ⟨_, _, rfl, by decide⟩

section
variable {V : Type} {round : ℚ → V} {content : Bytes} {grants : Nat → Bool} {o d : Nat}

theorem parseNumber_reads {q : ℚ} {t rest : Bytes} (h : ShortNumeral q t) (hrest : Ended rest)
    (hdrop : content.drop o = t ++ rest) :
    Reads o d (parseNumber content round) fun r s =>
      r = some (.number (round q)) ∧ Here (o + t.length) d s := by
  have htext : ((content.drop o).take 63).takeWhile isNumberChar = t := by
    rw [hdrop, List.take_append, List.take_of_length_le h.2,
      List.takeWhile_append_of_pos (numeral_chars h.1)]
    cases hr : rest.take (63 - t.length) with
    | nil => simp
    | cons b u =>
      have hb : rest.head? = some b := by
        cases rest with
        | nil => simp at hr
        | cons x rest =>
          cases hk : 63 - t.length with
          | zero => simp [hk] at hr
          | succ k =>
            rw [hk, List.take_succ_cons] at hr
            rw [List.head?_cons, (List.cons.inj hr).1]
      rw [List.takeWhile_cons, hrest b hb]
      simp
  unfold parseNumber
  refine Reads.get_bind fun s hs => ?_
  rw [hs.offset_eq, htext, strtod_numeral h.1]
  refine Reads.bind_eq (moveTo_reads _) ?_
  exact Reads.ret

theorem parseLiteral_reads {n : Nat} {v : Json V} :
    Reads o d (parseLiteral n v) fun r s => r = some v ∧ Here (o + n) d s := by
  refine Triple.bind (Q := fun _ => Here (o + n) d) ?_ fun _ => Reads.ret
  refine Triple.modify fun s hs => ⟨?_, hs.depth_eq⟩
  rw [hs.offset_eq]

/-- Which function `parse_value` calls, by the first character; no literal starts with it. -/
theorem parseValue_reads {c : UInt8} {u : Bytes} {levels : Nat} {Q : Option (Json V) →
    ParseBuffer → Prop} (hdrop : content.drop o = c :: u)
    (hc : c ≠ 0x6E ∧ c ≠ 0x66 ∧ c ≠ 0x74)
    (h : Reads o d (if c = 0x22 then do
          let string ← parseString content grants
          pure (string.map .string)
        else if c = 0x2D ∨ isDigit c then parseNumber content round
        else if c = 0x5B then parseArray content grants (parseValue content grants round levels)
        else if c = 0x7B then parseObject content grants (parseValue content grants round levels)
        else pure none) Q) :
    Reads o d (parseValue content grants round (levels + 1)) Q := by
  have hword : ∀ {n : Nat} {x : UInt8} {word : Bytes}, c ≠ x → word.head? = some x →
      ¬(content.drop o).take (n + 1) = word := by
    intro n x word hne hx heq
    rw [hdrop, List.take_succ_cons] at heq
    rw [← heq] at hx
    exact hne (Option.some.inj hx)
  unfold parseValue
  refine Reads.get_bind fun s hs => ?_
  rw [hs.offset_eq]
  simp only
  rw [if_neg (hword hc.1 rfl), if_neg (hword hc.2.1 rfl), if_neg (hword hc.2.2 rfl),
    getElem?_of_drop hdrop]
  exact h

/-- An array or an object without children. -/
theorem parseNested_empty {α : Type} {opening closing : UInt8} {children : Parse (Option (List α))}
    {make : List α → Json V} {w rest : Bytes} (hclosing : ¬closing ≤ 32) (hw : Blank w)
    (hd : d < nestingLimit) (hdrop : content.drop o = opening :: (w ++ closing :: rest)) :
    Reads o d (parseNested content opening closing children make) fun r s =>
      r = some (make []) ∧ Here (o + w.length + 2) d s := by
  have hinside := drop_succ_of_drop hdrop
  unfold parseNested
  refine Reads.get_bind fun s hs => ?_
  rw [hs.offset_eq, hs.depth_eq, if_neg (Nat.not_le_of_lt hd)]
  refine Triple.bind (Q := fun _ => Here o (d + 1)) ?_ fun _ => ?_
  · refine Triple.modify fun s hs => ⟨hs.offset_eq, ?_⟩
    rw [hs.depth_eq]
  refine Reads.bind_eq (readAt_reads (getElem?_of_drop hdrop)) ?_
  rw [if_neg (not_not.mpr rfl)]
  refine Reads.bind_eq (moveTo_reads _) ?_
  refine Reads.bind_eq (skip_reads (skipFrom_blank hw hclosing hinside)) ?_
  refine Reads.get_bind fun s hs => ?_
  rw [hs.offset_eq, getElem?_of_drop (drop_append_length hinside)]
  simp only [if_true]
  refine Triple.bind (Q := fun _ => Here (o + w.length + 2) d) ?_ fun _ => Reads.ret
  refine Triple.modify fun s hs => ⟨?_, ?_⟩
  · simp only [hs.offset_eq]
    omega
  · rw [hs.depth_eq, Nat.add_sub_cancel]

/-- An array or an object with some. -/
theorem parseNested_children {α : Type} {opening closing c : UInt8}
    {children : Parse (Option (List α))} {make : List α → Json V} {list : List α} {w u : Bytes}
    {p : Nat} (hc : ¬c ≤ 32) (hne : c ≠ closing) (hw : Blank w) (hd : d < nestingLimit)
    (hdrop : content.drop o = opening :: (w ++ c :: u))
    (hchildren : Reads (o + w.length) (d + 1) children fun r s =>
      r = some list ∧ Here p (d + 1) s) :
    Reads o d (parseNested content opening closing children make) fun r s =>
      r = some (make list) ∧ Here (p + 1) d s := by
  have hinside := drop_succ_of_drop hdrop
  unfold parseNested
  refine Reads.get_bind fun s hs => ?_
  rw [hs.offset_eq, hs.depth_eq, if_neg (Nat.not_le_of_lt hd)]
  refine Triple.bind (Q := fun _ => Here o (d + 1)) ?_ fun _ => ?_
  · refine Triple.modify fun s hs => ⟨hs.offset_eq, ?_⟩
    rw [hs.depth_eq]
  refine Reads.bind_eq (readAt_reads (getElem?_of_drop hdrop)) ?_
  rw [if_neg (not_not.mpr rfl)]
  refine Reads.bind_eq (moveTo_reads _) ?_
  refine Reads.bind_eq (skip_reads (skipFrom_blank hw hc hinside)) ?_
  refine Reads.get_bind fun s hs => ?_
  rw [hs.offset_eq, getElem?_of_drop (drop_append_length hinside)]
  simp only [if_neg hne]
  refine Reads.bind_eq (moveTo_reads _) ?_
  have hback : o + 1 + w.length - 1 = o + w.length := by omega
  rw [hback]
  refine Reads.bind_eq hchildren ?_
  refine Triple.bind (Q := fun _ => Here (p + 1) d) ?_ fun _ => Reads.ret
  refine Triple.modify fun s hs => ⟨?_, ?_⟩
  · rw [hs.offset_eq]
  · rw [hs.depth_eq, Nat.add_sub_cancel]

/-- One round of the loop of `parse_array`. -/
theorem parseItems_round (hg : ∀ n, grants n = true) {value : Parse (Option (Json V))}
    {p q rounds : Nat} {head : List (Json V)} {v : Json V} {a w u u' : Bytes} {c c' : UInt8}
    {Q : Option (List (Json V)) → ParseBuffer → Prop} (ha : Blank a) (hc : ¬c ≤ 32)
    (hdrop : content.drop (p + 1) = a ++ c :: u)
    (hvalue : Reads (p + 1 + a.length) d value fun r s => r = some v ∧ Here q d s)
    (hw : Blank w) (hc' : ¬c' ≤ 32) (hdrop' : content.drop q = w ++ c' :: u')
    (hnext : Reads (q + w.length) d
      (if c' = 0x2C then parseItems content grants value rounds (head ++ [v])
        else if c' = 0x5D then pure (some (head ++ [v]))
        else do
          release (itemBlocks (head ++ [v]))
          pure none) Q) :
    Reads p d (parseItems content grants value (rounds + 1) head) Q := by
  rw [parseItems]
  refine Reads.bind_eq (allocate_reads hg) ?_
  simp only [if_true]
  refine Triple.bind (Q := fun _ => Here (p + 1) d) ?_ fun _ => ?_
  · refine Triple.modify fun s hs => ⟨?_, hs.depth_eq⟩
    rw [hs.offset_eq]
  refine Reads.bind_eq (skip_reads (skipFrom_blank ha hc hdrop)) ?_
  refine Reads.bind_eq hvalue ?_
  refine Reads.bind_eq (skip_reads (skipFrom_blank hw hc' hdrop')) ?_
  refine Reads.get_bind fun s hs => ?_
  rw [hs.offset_eq, getElem?_of_drop (drop_append_length hdrop')]
  simpa only [Option.some.injEq] using hnext

/-- Behind the name of a member. -/
theorem drop_behind_name {p : Nat} {a kt rest : Bytes}
    (h : content.drop p = a ++ 0x22 :: (kt ++ 0x22 :: rest)) :
    content.drop (p + a.length + kt.length + 2) = rest := by
  have hend := drop_append_length (drop_succ_of_drop (drop_append_length h))
  rw [Nat.add_right_comm] at hend
  exact drop_succ_of_drop hend

/-- One round of the loop of `parse_object`. -/
theorem parseMembers_round (hg : ∀ n, grants n = true) {value : Parse (Option (Json V))}
    {p q rounds : Nat} {head : List (Bytes × Json V)} {v : Json V} {c c' : UInt8}
    {a k kt w w' w'' u u' : Bytes} {Q : Option (List (Bytes × Json V)) → ParseBuffer → Prop}
    (ha : Blank a) (hk : Chars k kt) (hw : Blank w) (hw' : Blank w') (hc : ¬c ≤ 32)
    (hdrop : content.drop (p + 1) =
      a ++ 0x22 :: (kt ++ 0x22 :: (w ++ 0x3A :: (w' ++ c :: u))))
    (hvalue : Reads (p + 1 + a.length + kt.length + 2 + w.length + 1 + w'.length) d value
      fun r s => r = some v ∧ Here q d s)
    (hw'' : Blank w'') (hc' : ¬c' ≤ 32) (hdrop' : content.drop q = w'' ++ c' :: u')
    (hnext : Reads (q + w''.length) d
      (if c' = 0x2C then parseMembers content grants value rounds (head ++ [(k, v)])
        else if c' = 0x7D then pure (some (head ++ [(k, v)]))
        else do
          release (memberBlocks (head ++ [(k, v)]))
          pure none) Q) :
    Reads p d (parseMembers content grants value (rounds + 1) head) Q := by
  have hquote := drop_append_length hdrop
  have hlen := congrArg List.length hdrop
  rw [List.length_drop, List.length_append, List.length_cons] at hlen
  have hname := drop_behind_name hdrop
  have hcolon := drop_append_length hname
  rw [parseMembers]
  refine Reads.bind_eq (allocate_reads hg) ?_
  simp only [if_true]
  refine Reads.get_bind fun s hs => ?_
  rw [hs.offset_eq, if_pos (by omega)]
  refine Reads.bind_eq (moveTo_reads _) ?_
  refine Reads.bind_eq (skip_reads (skipFrom_blank ha (by decide) hdrop)) ?_
  refine Reads.bind_eq (parseString_reads hg hk hquote) ?_
  refine Reads.bind_eq (skip_reads (skipFrom_blank hw (by decide) hname)) ?_
  refine Reads.get_bind fun s hs => ?_
  rw [hs.offset_eq, getElem?_of_drop hcolon, if_pos rfl]
  refine Reads.bind_eq (moveTo_reads _) ?_
  refine Reads.bind_eq (skip_reads (skipFrom_blank hw' hc (drop_succ_of_drop hcolon))) ?_
  refine Reads.bind_eq hvalue ?_
  refine Reads.bind_eq (skip_reads (skipFrom_blank hw'' hc' hdrop')) ?_
  refine Reads.get_bind fun s hs => ?_
  rw [hs.offset_eq, getElem?_of_drop (drop_append_length hdrop')]
  simpa only [Option.some.injEq] using hnext

/-! ## The induction -/

variable (round content grants) in
/-- A part of a text is read as what it spells. -/
def PartReads : Part → Bytes → Prop
  | .value v, t => ∀ (o d levels : Nat) (rest : Bytes), content.drop o = t ++ rest →
      ((∃ q, v = .number q) → Ended rest) → d + Json.nesting v ≤ nestingLimit →
      Reads o d (parseValue content grants round levels) fun r s =>
        r = some (Json.mapNumbers round v) ∧ Here (o + t.length) d s
  | .items vs, t => ∀ (p d levels rounds : Nat) (a rest : Bytes) (head : List (Json V)),
      content.drop (p + 1) = a ++ (t ++ 0x5D :: rest) → Blank a →
      d + Json.itemNesting vs ≤ nestingLimit →
      Reads p d (parseItems content grants (parseValue content grants round levels) rounds head)
        fun r s => r = some (head ++ Json.mapItems round vs) ∧
          Here (p + 1 + a.length + t.length) d s
  | .members ms, t => ∀ (p d levels rounds : Nat) (a rest : Bytes) (head : List (Bytes × Json V)),
      content.drop (p + 1) = a ++ (t ++ 0x7D :: rest) → Blank a →
      d + Json.memberNesting ms ≤ nestingLimit →
      Reads p d (parseMembers content grants (parseValue content grants round levels) rounds head)
        fun r s => r = some (head ++ Json.mapMembers round ms) ∧
          Here (p + 1 + a.length + t.length) d s

theorem blank_nil : Blank [] := nofun

/-- A literal, from its first to its last character. -/
theorem literal_reads {word rest : Bytes} {v : Json ℚ} {levels : Nat}
    (h : (word = ascii "null" ∧ v = .null) ∨ (word = ascii "false" ∧ v = .bool false) ∨
      (word = ascii "true" ∧ v = .bool true)) (hdrop : content.drop o = word ++ rest) :
    Reads o d (parseValue content grants round levels) fun r s =>
      r = some (Json.mapNumbers round v) ∧ Here (o + word.length) d s := by
  cases levels with
  | zero => exact Triple.stop fun _ _ => trivial
  | succ levels =>
    unfold parseValue
    refine Reads.get_bind fun s hs => ?_
    rw [hs.offset_eq]
    simp only
    rcases h with ⟨rfl, rfl⟩ | ⟨rfl, rfl⟩ | ⟨rfl, rfl⟩
    · rw [if_pos (by rw [hdrop]; rfl)]
      exact parseLiteral_reads
    · rw [if_neg (by rw [hdrop]; exact nofun), if_pos (by rw [hdrop]; rfl)]
      exact parseLiteral_reads
    · rw [if_neg (by rw [hdrop]; exact nofun), if_neg (by rw [hdrop]; exact nofun),
        if_pos (by rw [hdrop]; rfl)]
      exact parseLiteral_reads

/-- **The parser follows the grammar**, one rule after the other. -/
theorem spells_reads (hg : ∀ n, grants n = true) {part : Part} {t : Bytes}
    (h : Spells ShortNumeral part t) : PartReads round content grants part t := by
  induction h with
  | null =>
    intro o d levels rest hdrop _ _
    exact literal_reads (Or.inl ⟨rfl, rfl⟩) hdrop
  | false =>
    intro o d levels rest hdrop _ _
    exact literal_reads (Or.inr (Or.inl ⟨rfl, rfl⟩)) hdrop
  | true =>
    intro o d levels rest hdrop _ _
    exact literal_reads (Or.inr (Or.inr ⟨rfl, rfl⟩)) hdrop
  | @number q t h =>
    intro o d levels rest hdrop hended _
    cases levels with
    | zero => exact Triple.stop fun _ _ => trivial
    | succ levels =>
      obtain ⟨c, u, rfl, hc⟩ := numeral_head h.1
      have hne : c ≠ 0x22 ∧ c ≠ 0x6E ∧ c ≠ 0x66 ∧ c ≠ 0x74 := by
        rcases hc with rfl | hc
        · decide
        · refine ⟨?_, ?_, ?_, ?_⟩ <;> exact Json.ne_of_isDigit hc (by decide)
      refine parseValue_reads hdrop hne.2 ?_
      rw [if_neg hne.1, if_pos hc]
      exact parseNumber_reads h (hended ⟨q, rfl⟩) hdrop
  | @string s t h =>
    intro o d levels rest hdrop _ _
    cases levels with
    | zero => exact Triple.stop fun _ _ => trivial
    | succ levels =>
      have hdrop' : content.drop o = 0x22 :: (t ++ 0x22 :: rest) := by
        rw [hdrop]
        simp
      refine parseValue_reads hdrop' (by decide) ?_
      rw [if_pos rfl]
      refine Reads.bind_eq (parseString_reads hg h hdrop') ?_
      refine Triple.pure fun st hst => ⟨rfl, ?_, hst.depth_eq⟩
      rw [hst.offset_eq]
      simp only [List.length_cons, List.length_append, List.length_nil]
      omega
  | @emptyArray w hw =>
    intro o d levels rest hdrop _ hd
    cases levels with
    | zero => exact Triple.stop fun _ _ => trivial
    | succ levels =>
      simp only [Json.nesting] at hd
      have hdrop' : content.drop o = 0x5B :: (w ++ 0x5D :: rest) := by
        rw [hdrop]
        simp
      refine parseValue_reads hdrop' (by decide) ?_
      rw [if_neg (by decide), if_neg (by decide), if_pos rfl]
      refine (parseNested_empty (by decide) hw (by omega) hdrop').post fun r st hr => ⟨hr.1, ?_⟩
      simp only [List.length_cons, List.length_append, List.length_nil]
      exact hr.2
  | @array w t vs hw h ih =>
    intro o d levels rest hdrop _ hd
    cases levels with
    | zero => exact Triple.stop fun _ _ => trivial
    | succ levels =>
      simp only [Json.nesting] at hd
      obtain ⟨c, u, hcu, hc, hbracket, -⟩ := spells_head h
      have hdrop' : content.drop o = 0x5B :: (w ++ (t ++ 0x5D :: rest)) := by
        rw [hdrop]
        simp
      have hfirst : content.drop (o + w.length + 1) = [] ++ (t ++ 0x5D :: rest) := by
        rw [Nat.add_right_comm]
        exact drop_append_length (drop_succ_of_drop hdrop')
      have hitems := ih (o + w.length) (d + 1) levels content.length [] rest [] hfirst blank_nil
        (by omega)
      refine parseValue_reads hdrop' (by decide) ?_
      rw [if_neg (by decide), if_neg (by decide), if_pos rfl]
      rw [hcu] at hdrop'
      refine (parseNested_children hc hbracket hw (by omega) hdrop' hitems).post
        fun r st hr => ⟨hr.1, ?_, hr.2.depth_eq⟩
      rw [hr.2.offset_eq]
      simp only [List.length_cons, List.length_append, List.length_nil]
      omega
  | @emptyObject w hw =>
    intro o d levels rest hdrop _ hd
    cases levels with
    | zero => exact Triple.stop fun _ _ => trivial
    | succ levels =>
      simp only [Json.nesting] at hd
      have hdrop' : content.drop o = 0x7B :: (w ++ 0x7D :: rest) := by
        rw [hdrop]
        simp
      refine parseValue_reads hdrop' (by decide) ?_
      rw [if_neg (by decide), if_neg (by decide), if_neg (by decide), if_pos rfl]
      refine (parseNested_empty (by decide) hw (by omega) hdrop').post fun r st hr => ⟨hr.1, ?_⟩
      simp only [List.length_cons, List.length_append, List.length_nil]
      exact hr.2
  | @object w t ms hw h ih =>
    intro o d levels rest hdrop _ hd
    cases levels with
    | zero => exact Triple.stop fun _ _ => trivial
    | succ levels =>
      simp only [Json.nesting] at hd
      obtain ⟨c, u, hcu, hc, -, hbrace, -⟩ := spells_head h
      have hdrop' : content.drop o = 0x7B :: (w ++ (t ++ 0x7D :: rest)) := by
        rw [hdrop]
        simp
      have hfirst : content.drop (o + w.length + 1) = [] ++ (t ++ 0x7D :: rest) := by
        rw [Nat.add_right_comm]
        exact drop_append_length (drop_succ_of_drop hdrop')
      have hmembers := ih (o + w.length) (d + 1) levels content.length [] rest [] hfirst blank_nil
        (by omega)
      refine parseValue_reads hdrop' (by decide) ?_
      rw [if_neg (by decide), if_neg (by decide), if_neg (by decide), if_pos rfl]
      rw [hcu] at hdrop'
      refine (parseNested_children hc hbrace hw (by omega) hdrop' hmembers).post
        fun r st hr => ⟨hr.1, ?_, hr.2.depth_eq⟩
      rw [hr.2.offset_eq]
      simp only [List.length_cons, List.length_append, List.length_nil]
      omega
  | @item v t w h hw ih =>
    intro p d levels rounds a rest head hdrop ha hd
    cases rounds with
    | zero => exact Triple.stop fun _ _ => trivial
    | succ rounds =>
      simp only [Json.itemNesting, Nat.max_zero] at hd
      obtain ⟨c, u, hcu, hc, -, -⟩ := spells_head h
      rw [List.append_assoc] at hdrop
      have hvalue := ih (p + 1 + a.length) d levels (w ++ 0x5D :: rest) (drop_append_length hdrop)
        (fun _ => ended_blank hw (by decide)) hd
      have hafter := drop_append_length (drop_append_length hdrop)
      rw [hcu] at hdrop
      refine parseItems_round hg ha hc hdrop hvalue hw (by decide) hafter ?_
      rw [if_neg (by decide), if_pos rfl]
      refine Triple.pure fun st hst => ⟨rfl, ?_, hst.depth_eq⟩
      rw [hst.offset_eq, List.length_append]
      omega
  | @items v vs t w w' u h hw hw' hu ih ihu =>
    intro p d levels rounds a rest head hdrop ha hd
    cases rounds with
    | zero => exact Triple.stop fun _ _ => trivial
    | succ rounds =>
      simp only [Json.itemNesting] at hd
      obtain ⟨c, x, hcx, hc, -, -⟩ := spells_head h
      have hdrop' : content.drop (p + 1) =
          a ++ (t ++ (w ++ 0x2C :: (w' ++ (u ++ 0x5D :: rest)))) := by
        rw [hdrop]
        simp
      have hvalue := ih (p + 1 + a.length) d levels _ (drop_append_length hdrop')
        (fun _ => ended_blank hw (by decide)) (by omega)
      have hafter := drop_append_length (drop_append_length hdrop')
      have hcomma := drop_succ_of_drop (drop_append_length hafter)
      rw [hcx] at hdrop'
      refine parseItems_round hg ha hc hdrop' hvalue hw (by decide) hafter ?_
      rw [if_pos rfl]
      refine (ihu _ d levels rounds w' rest (head ++ [Json.mapNumbers round v]) hcomma hw'
        (by omega)).post fun r st hr => ⟨?_, ?_, hr.2.depth_eq⟩
      · rw [hr.1, List.append_assoc]
        rfl
      · rw [hr.2.offset_eq]
        simp only [List.length_cons, List.length_append]
        omega
  | @member k kt t w w' w'' v hk hw hw' h hw'' ih =>
    intro p d levels rounds a rest head hdrop ha hd
    cases rounds with
    | zero => exact Triple.stop fun _ _ => trivial
    | succ rounds =>
      simp only [Json.memberNesting, Nat.max_zero] at hd
      obtain ⟨c, x, hcx, hc, -, -⟩ := spells_head h
      have hdrop' : content.drop (p + 1) = a ++ 0x22 :: (kt ++ 0x22 :: (w ++ 0x3A :: (w' ++
          (t ++ (w'' ++ 0x7D :: rest))))) := by
        rw [hdrop]
        simp
      have hcolon := drop_append_length (drop_behind_name hdrop')
      have hstart := drop_append_length (drop_succ_of_drop hcolon)
      have hvalue := ih _ d levels _ hstart (fun _ => ended_blank hw'' (by decide)) hd
      have hafter := drop_append_length hstart
      rw [hcx] at hdrop'
      refine parseMembers_round hg ha hk hw hw' hc hdrop' hvalue hw'' (by decide) hafter ?_
      rw [if_neg (by decide), if_pos rfl]
      refine Triple.pure fun st hst => ⟨rfl, ?_, hst.depth_eq⟩
      rw [hst.offset_eq]
      simp only [List.length_cons, List.length_append]
      omega
  | @members k kt t w w' w'' w₃ u v ms hk hw hw' h hw'' hw₃ hu ih ihu =>
    intro p d levels rounds a rest head hdrop ha hd
    cases rounds with
    | zero => exact Triple.stop fun _ _ => trivial
    | succ rounds =>
      simp only [Json.memberNesting] at hd
      obtain ⟨c, x, hcx, hc, -, -⟩ := spells_head h
      have hdrop' : content.drop (p + 1) = a ++ 0x22 :: (kt ++ 0x22 :: (w ++ 0x3A :: (w' ++
          (t ++ (w'' ++ 0x2C :: (w₃ ++ (u ++ 0x7D :: rest))))))) := by
        rw [hdrop]
        simp
      have hcolon := drop_append_length (drop_behind_name hdrop')
      have hstart := drop_append_length (drop_succ_of_drop hcolon)
      have hvalue := ih _ d levels _ hstart (fun _ => ended_blank hw'' (by decide)) (by omega)
      have hafter := drop_append_length hstart
      have hcomma := drop_succ_of_drop (drop_append_length hafter)
      rw [hcx] at hdrop'
      refine parseMembers_round hg ha hk hw hw' hc hdrop' hvalue hw'' (by decide) hafter ?_
      rw [if_pos rfl]
      refine (ihu _ d levels rounds w₃ rest (head ++ [(k, Json.mapNumbers round v)]) hcomma hw₃
        (by omega)).post fun r st hr => ⟨?_, ?_, hr.2.depth_eq⟩
      · rw [hr.1, List.append_assoc]
        rfl
      · rw [hr.2.offset_eq]
        simp only [List.length_cons, List.length_append]
        omega

/-- A text of the grammar has no byte order mark. -/
theorem no_bom {v : Json ℚ} {w t rest : Bytes} (hw : Blank w)
    (h : Spells ShortNumeral (.value v) t) :
    (w ++ (t ++ rest)).take 3 ≠ [0xEF, 0xBB, 0xBF] := by
  obtain ⟨c, u, rfl, -, -, -, hc⟩ := spells_head h
  intro hbom
  cases w with
  | nil => exact hc (List.cons.inj hbom).1
  | cons x w =>
    have hws := hw x (List.mem_cons_self ..)
    rw [(List.cons.inj hbom).1] at hws
    exact absurd hws (by decide)

theorem ended_nul {rest : Bytes} (h : Ended rest) : Ended (rest ++ [0]) := by
  cases rest with
  | nil =>
    intro b hb
    rw [← Option.some.inj hb]
    decide
  | cons x rest => exact h

theorem parseWithLength_reads {v : Json ℚ} {w t rest : Bytes} (hg : ∀ n, grants n = true)
    (hw : Blank w) (h : Spells ShortNumeral (.value v) t)
    (hended : (∃ q, v = .number q) → Ended rest) (hnesting : Json.nesting v ≤ nestingLimit) :
    Reads 0 0 (parseWithLength (w ++ (t ++ rest)) grants round) fun r s =>
      r = some (Json.mapNumbers round v) ∧ Here (w.length + t.length) 0 s := by
  obtain ⟨c, u, hcu, hc, -⟩ := spells_head h
  have hstart : (w ++ (t ++ rest)).drop 0 = w ++ c :: (u ++ rest) := by
    rw [hcu]
    rfl
  have hpart : PartReads round (w ++ (t ++ rest)) grants (.value v) t := spells_reads hg h
  have hvalue := hpart (0 + w.length) 0 (nestingLimit + 1) rest (drop_append_length (w := w) rfl)
    hended (by omega)
  unfold parseWithLength
  refine Reads.bind_eq (allocate_reads hg) ?_
  simp only [if_true]
  refine Triple.bind (Q := fun _ => Here 0 0) ?_ fun _ => ?_
  · refine Triple.modify fun s hs => ?_
    rw [if_neg (fun hbom => no_bom hw h hbom.2)]
    exact hs
  refine Reads.bind_eq (skip_reads (skipFrom_blank hw hc hstart)) ?_
  refine Reads.bind_eq hvalue ?_
  refine Triple.pure fun s hs => ⟨rfl, ?_, hs.depth_eq⟩
  rw [hs.offset_eq, Nat.zero_add]

/-- What is read, and that it is: the two sides of the parser together. -/
theorem parse_run {v : Json ℚ} {w t : Bytes} (rest : Bytes) (hg : ∀ n, grants n = true)
    (hw : Blank w) (h : Spells ShortNumeral (.value v) t)
    (hended : (∃ q, v = .number q) → Ended rest) (hnesting : Json.nesting v ≤ nestingLimit) :
    ∃ s, cJsonParse grants round (w ++ (t ++ rest)) = (.ok (some (Json.mapNumbers round v)), s) ∧
      s.offset = w.length + t.length := by
  have hcontent : (w ++ (t ++ rest) ++ [0] : Bytes) = w ++ (t ++ (rest ++ [0])) := by simp
  have hsafe := parseWithLength_safe (w ++ (t ++ (rest ++ [0]))) grants round
  have hreads : Reads 0 0 (parseWithLength (w ++ (t ++ (rest ++ [0]))) grants round) _ :=
    parseWithLength_reads hg hw h (fun hq => ended_nul (hended hq)) hnesting
  obtain ⟨r, s, hr, -⟩ := hsafe.exists_result (s := parseStart) ⟨rfl, rfl, rfl⟩
  obtain ⟨rfl, hhere⟩ := hreads.of_result (s := parseStart) ⟨rfl, rfl⟩ hr
  refine ⟨s, ?_, hhere.offset_eq⟩
  rw [cJsonParse, hcontent]
  exact Prog.apply_of_result hr

/-- **cJSON reads every JSON text.** Let `t` spell a value in the grammar of RFC 8259, nested at
    most as deeply as cJSON allows and with numbers of at most 63 characters. Then `cJSON_Parse`,
    given the memory, returns that value with its numbers rounded, whatever white space stands
    before it; and it does not look at what stands behind, except that a number has to end. -/
theorem cJsonParse_reads {v : Json ℚ} {w t rest : Bytes} (hg : ∀ n, grants n = true)
    (hw : Blank w) (h : Spells ShortNumeral (.value v) t)
    (hended : (∃ q, v = .number q) → Ended rest) (hnesting : Json.nesting v ≤ nestingLimit) :
    (cJsonParse grants round (w ++ (t ++ rest))).1 = .ok (some (Json.mapNumbers round v)) ∧
      (cJsonParse grants round (w ++ (t ++ rest))).2.offset = w.length + t.length := by
  obtain ⟨s, hrun, hoffset⟩ := parse_run rest hg hw h hended hnesting
  rw [hrun]
  exact ⟨rfl, hoffset⟩

end

/-! A small settings file. -/

def sampleText : Bytes :=
  ascii "\x7b \"device_id\" : \"gw\\u0041\" ,\n\"poll_interval_ms\":2.5e2,\"x\":[true, \x7b\x7d]\x7d"

def sampleMembers : List (Bytes × Json ℚ) :=
  [(ascii "device_id", .string (ascii "gwA")), (ascii "poll_interval_ms", .number 250),
    (ascii "x", .array [.bool true, .object []])]

theorem chars_plain {s : Bytes} (h : ∀ b ∈ s, ¬b < 0x20 ∧ b ≠ 0x22 ∧ b ≠ 0x5C) : Chars s s := by
  induction s with
  | nil => exact .nil
  | cons b s ih =>
    obtain ⟨hb, hs⟩ := List.forall_mem_cons.mp h
    exact .plain hb.1 hb.2.1 hb.2.2 (ih hs)

theorem sample_spells : Spells ShortNumeral (.value (.object sampleMembers)) sampleText := by
  have hspace : Blank [0x20] := by decide +kernel
  have hline : Blank [0x0A] := by decide +kernel
  have hcode : Json.hex4 [0x30, 0x30, 0x34, 0x31] = some (0x41, []) := by decide +kernel
  have hid : Chars (ascii "gwA") (ascii "gw\\u0041") :=
    .plain (by decide +kernel) (by decide +kernel) (by decide +kernel)
      (.plain (by decide +kernel) (by decide +kernel) (by decide +kernel)
        (.unit hcode (by decide +kernel) .nil))
  have hnumber : Spells ShortNumeral (.value (.number 250)) (ascii "2.5e2") :=
    .number ⟨by decide +kernel, by decide +kernel⟩
  have harray : Spells ShortNumeral (.value (.array [.bool true, .object []]))
      (ascii "[true, \x7b\x7d]") :=
    .array blank_nil (.items .true blank_nil hspace (.item (.emptyObject blank_nil) blank_nil))
  exact .object hspace
    (.members (chars_plain (by decide +kernel)) hspace hspace (.string hid) hspace hline
      (.members (chars_plain (by decide +kernel)) blank_nil blank_nil hnumber blank_nil blank_nil
        (.member (chars_plain (by decide +kernel)) blank_nil blank_nil harray blank_nil)))

theorem cJsonParse_reads_sample :
    (cJsonParse (fun _ => true) id (ascii " " ++ (sampleText ++ ascii " // settings"))).1 =
      .ok (some (Json.mapNumbers id (.object sampleMembers))) :=
  (cJsonParse_reads (fun _ => rfl) (by decide +kernel) sample_spells nofun (by decide +kernel)).1

/-! ## The configuration file -/

theorem chars_noNul {s t : Bytes} (h : Chars s t) : (0 : UInt8) ∉ t := by
  have hhex : ∀ {a b c f : UInt8} {code : Nat}, Json.hex4 [a, b, c, f] = some (code, []) →
      (0 : UInt8) ∉ [a, b, c, f] := by
    intro a b c f code hcode hmem
    have hzero : Json.hexValue 0 = none := by decide
    simp only [List.mem_cons, List.not_mem_nil, or_false] at hmem
    rcases hmem with rfl | rfl | rfl | rfl <;> simp [Json.hex4, hzero] at hcode
  induction h with
  | nil => exact List.not_mem_nil
  | plain hctl hquote hslash h ih =>
    rw [List.mem_cons, not_or]
    refine ⟨?_, ih⟩
    rintro rfl
    exact hctl (by decide)
  | short hc h ih =>
    simp only [List.mem_cons, not_or]
    refine ⟨by decide, ?_, ih⟩
    rintro rfl
    have hnul : Json.shortEscape 0 = none := by decide
    rw [hnul] at hc
    cases hc
  | unit hcode hlow h ih =>
    have hdigits := hhex hcode
    simp only [List.mem_cons, List.not_mem_nil, not_or] at hdigits ⊢
    exact ⟨by decide, by decide, hdigits.1, hdigits.2.1, hdigits.2.2.1, hdigits.2.2.2.1, ih⟩
  | pair hhigh hh hlow hl h ih =>
    have hdigits := hhex hhigh
    have hdigits' := hhex hlow
    simp only [List.mem_cons, List.not_mem_nil, not_or] at hdigits hdigits' ⊢
    exact ⟨by decide, by decide, hdigits.1, hdigits.2.1, hdigits.2.2.1, hdigits.2.2.2.1,
      by decide, by decide, hdigits'.1, hdigits'.2.1, hdigits'.2.2.1, hdigits'.2.2.2.1, ih⟩

theorem blank_noNul {w : Bytes} (hw : Blank w) : (0 : UInt8) ∉ w :=
  fun hmem => absurd (hw 0 hmem) (by decide)

theorem spells_noNul {part : Part} {t : Bytes} (h : Spells ShortNumeral part t) :
    (0 : UInt8) ∉ t := by
  induction h with
  | null => decide
  | false => decide
  | true => decide
  | number h => exact fun hmem => absurd (numeral_chars h.1 0 hmem) (by decide)
  | string h =>
    have := chars_noNul h
    simp [this]
  | emptyArray hw =>
    have := blank_noNul hw
    simp [this]
  | array hw h ih =>
    have := blank_noNul hw
    simp [this, ih]
  | emptyObject hw =>
    have := blank_noNul hw
    simp [this]
  | object hw h ih =>
    have := blank_noNul hw
    simp [this, ih]
  | item h hw ih =>
    have := blank_noNul hw
    simp [this, ih]
  | items h hw hw' hu ih ihu =>
    have := blank_noNul hw
    have := blank_noNul hw'
    simp [*]
  | member hk hw hw' h hw'' ih =>
    have := chars_noNul hk
    have := blank_noNul hw
    have := blank_noNul hw'
    have := blank_noNul hw''
    simp [*]
  | members hk hw hw' h hw'' hw₃ hu ih ihu =>
    have := chars_noNul hk
    have := blank_noNul hw
    have := blank_noNul hw'
    have := blank_noNul hw''
    have := blank_noNul hw₃
    simp [*]

/-- **The settings file.** A file that starts with a JSON object is accepted, and the settings are
    those of the object: the comments, the second object or the garbage behind it change
    nothing. -/
theorem gatewayConfigLoad_reads {V : Type} [CDouble V] [CDoubleInt V] (undef : Nat → V → Nat)
    {round : ℚ → V} {grants : Nat → Bool} {ms : List (Bytes × Json ℚ)} {w t rest : Bytes}
    (hg : ∀ n, grants n = true) (hw : Blank w) (h : Spells ShortNumeral (.value (.object ms)) t)
    (hnesting : Json.nesting (.object ms) ≤ nestingLimit) :
    gatewayConfigLoad undef (cJsonDocument grants round) (some (w ++ (t ++ rest))) =
      (true, configOfDocument undef (cStrings (Json.mapNumbers round (.object ms)))) := by
  have htext : upToNul (w ++ (t ++ rest)) = w ++ (t ++ upToNul rest) := by
    have hkeep : ∀ {a b : Bytes}, (0 : UInt8) ∉ a → upToNul (a ++ b) = a ++ upToNul b := by
      intro a b ha
      apply List.takeWhile_append_of_pos
      intro x hx
      have hne : x ≠ 0 := fun h0 => ha (h0 ▸ hx)
      simp [hne]
    rw [hkeep (blank_noNul hw), hkeep (spells_noNul h)]
  have hdocument : cJsonDocument grants round (w ++ (t ++ upToNul rest)) =
      some (cStrings (Json.mapNumbers round (.object ms))) := by
    obtain ⟨s, hparse, -⟩ := parse_run (upToNul rest) hg hw h nofun hnesting
    rw [cJsonDocument, hparse]
  unfold gatewayConfigLoad
  rw [Option.bind_some, htext, hdocument]
  rfl

theorem gatewayConfigLoad_reads_sample :
    ∃ cfg : GatewayConfig ℚ, gatewayConfigLoad (fun _ _ => 0) (cJsonDocument (fun _ => true) id)
      (some (ascii " " ++ (sampleText ++ ascii " // settings"))) = (true, cfg) ∧
      cfg.device_id.bytes = ascii "gwA" ∧ cfg.poll_interval_ms = 250 ∧ cfg.queue_size = 1024 :=
  ⟨_, gatewayConfigLoad_reads (fun _ _ => 0) (fun _ => rfl) (by decide +kernel) sample_spells
      (by decide +kernel),
    by decide +kernel, by decide +kernel, by decide +kernel⟩

end CJson
end EdgeFlow
