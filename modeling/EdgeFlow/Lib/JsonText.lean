import EdgeFlow.Lib.Json

/-!
# Objects written by pasting texts together

A program that prints an object with `%s` between quotes writes the bytes of a string as they
are. `renderObject` is such a text: keys of the program's own, and pieces that are pasted in,
between quotes or bare. Read back (`Json.parse`), it is the object that was meant exactly when
every quoted piece is *plain* — no quote, no backslash, no control byte, and UTF-8 — and every bare
piece is a number.

For the hard direction a piece that is not plain is read from its opening quote on: the string
that comes out ends inside the piece and is shorter than it, or contains an escape and is shorter
than it, or runs past the piece's own closing quote and is not followed by what must follow it.
-/

set_option autoImplicit false

namespace EdgeFlow
namespace Lib
namespace Json

/-! ## UTF-8 at a byte below `0x80` -/

/-- One row of a table of cases: its value has `P`, or the rows below decide. -/
theorem of_ite_eq_some {α : Type} {P : α → Prop} {c : Prop} [Decidable c] {a s : α} {x : Option α}
    (h : (if c then some a else x) = some s) (ha : P a) (hx : x = some s → P s) : P s := by
  by_cases hc : c
  · rw [if_pos hc] at h
    exact Option.some.inj h ▸ ha
  · rw [if_neg hc] at h
    exact hx h

/-- Between two characters, or inside one that goes on with bytes that are not ASCII. -/
def Utf8.Settled (s : Utf8) : Prop := s = utf8Start ∨ (s.owed ≠ 0 ∧ 0x80 ≤ s.low)

theorem utf8Step_first {s s' : Utf8} {b : UInt8} (ho : s.owed = 0) (h : utf8Step s b = some s') :
    s'.Settled := by
  have hinside : ∀ owed low high, owed ≠ 0 ∧ 0x80 ≤ low → Utf8.Settled ⟨owed, low, high⟩ :=
    fun _ _ _ h => Or.inr h
  rw [utf8Step, if_pos ho] at h
  apply of_ite_eq_some h (Or.inl rfl)
  intro h
  apply of_ite_eq_some h (hinside _ _ _ (by decide))
  intro h
  apply of_ite_eq_some h (hinside _ _ _ (by decide))
  intro h
  apply of_ite_eq_some h (hinside _ _ _ (by decide))
  intro h
  apply of_ite_eq_some h (hinside _ _ _ (by decide))
  intro h
  apply of_ite_eq_some h (hinside _ _ _ (by decide))
  intro h
  apply of_ite_eq_some h (hinside _ _ _ (by decide))
  intro h
  apply of_ite_eq_some h (hinside _ _ _ (by decide))
  intro h
  cases h

theorem utf8_reachable {bs : Bytes} {s : Utf8} (h : run utf8Step utf8Start bs = some s) :
    s.Settled := by
  refine run_inv ?_ (Or.inl rfl) h
  intro s b s' _ hstep
  by_cases ho : s.owed = 0
  · exact utf8Step_first ho hstep
  · rw [utf8Step, if_neg ho] at hstep
    split at hstep
    · split at hstep
      · exact Or.inl (Option.some.inj hstep).symm
      · rename_i hone
        obtain rfl := Option.some.inj hstep
        refine Or.inr ⟨?_, UInt8.le_refl _⟩
        simp only
        omega
    · cases hstep

theorem utf8Step_start {c : UInt8} (hc : c ≤ 0x7F) : utf8Step utf8Start c = some utf8Start := by
  have ho : utf8Start.owed = 0 := rfl
  rw [utf8Step, if_pos ho, if_pos hc]

/-- No character goes on with such a byte. -/
theorem utf8Step_inside {s : Utf8} {c : UInt8} (hc : c ≤ 0x7F) (ho : s.owed ≠ 0)
    (hl : 0x80 ≤ s.low) : utf8Step s c = none := by
  have hlow : ¬(s.low ≤ c ∧ c ≤ s.high) := by
    rintro ⟨h, _⟩
    rw [UInt8.le_iff_toNat_le] at h hl hc
    simp only [UInt8.toNat_ofNat] at hc hl
    omega
  rw [utf8Step, if_neg ho, if_neg hlow]

/-- **A text can be cut at a byte below `0x80`.** -/
theorem isUtf8_append_cons (a b : Bytes) {c : UInt8} (hc : c ≤ 0x7F) :
    isUtf8 (a ++ c :: b) = (isUtf8 a && isUtf8 b) := by
  unfold isUtf8
  rw [run_append]
  cases ha : run utf8Step utf8Start a with
  | none => simp
  | some s =>
    rw [Option.bind_some, run]
    rcases utf8_reachable ha with rfl | ⟨ho, hl⟩
    · rw [utf8Step_start hc]
      simp
    · have hne : s ≠ utf8Start := fun hs => ho (by rw [hs]; rfl)
      rw [utf8Step_inside hc ho hl]
      simp [hne]

theorem isUtf8_cons (b : Bytes) {c : UInt8} (hc : c ≤ 0x7F) : isUtf8 (c :: b) = isUtf8 b := by
  have h := isUtf8_append_cons [] b hc
  have hnil : isUtf8 [] = true := rfl
  rw [hnil, Bool.true_and] at h
  exact h

theorem isUtf8_of_ascii : ∀ {bs : Bytes}, (∀ b ∈ bs, b ≤ 0x7F) → isUtf8 bs = true := by
  intro bs
  induction bs with
  | nil =>
    intro _
    rfl
  | cons b bs ih =>
    intro h
    rw [isUtf8_cons bs (h b (List.mem_cons_self ..))]
    exact ih fun c hc => h c (List.mem_cons_of_mem _ hc)

/-! ## Strings -/

/-- Bytes that stand for themselves inside a string. -/
def Plain (bs : Bytes) : Prop := ∀ b ∈ bs, b ≠ 0x22 ∧ b ≠ 0x5C ∧ ¬b < 0x20

instance (bs : Bytes) : Decidable (Plain bs) := List.decidableBAll ..

theorem Plain.tail {b : UInt8} {bs : Bytes} (h : Plain (b :: bs)) : Plain bs :=
  fun c hc => h c (List.mem_cons_of_mem _ hc)

theorem rawString_plain : ∀ {r : Bytes} (rest : Bytes), Plain r →
    rawStringFrom false (r ++ 0x22 :: rest) = some (r, rest) := by
  intro r
  induction r with
  | nil =>
    intro rest _
    rfl
  | cons b r ih =>
    intro rest h
    obtain ⟨hq, hb, hc⟩ := h b (List.mem_cons_self ..)
    rw [List.cons_append, rawStringFrom, if_neg hq, if_neg hc, decide_eq_false hb, ih rest h.tail]
    rfl

theorem unescapeFrom_plain : ∀ {r : Bytes}, (0x5C : UInt8) ∉ r →
    unescapeFrom r.length r = some r := by
  intro r
  induction r with
  | nil =>
    intro _
    rfl
  | cons b r ih =>
    intro h
    have hb : b ≠ 0x5C := fun hq => h (hq ▸ List.mem_cons_self ..)
    rw [List.length_cons, unescapeFrom, if_neg hb, ih fun hr => h (List.mem_cons_of_mem _ hr)]
    rfl

theorem Plain.no_backslash {r : Bytes} (h : Plain r) : (0x5C : UInt8) ∉ r :=
  fun hr => (h _ hr).2.1 rfl

/-- A plain string is read as it is. -/
theorem parseString_plain {r : Bytes} (rest : Bytes) (h : Plain r) :
    parseString (r ++ 0x22 :: rest) = some (r, rest) := by
  rw [parseString, rawString, rawString_plain rest h, Option.bind_some, unescape,
    unescapeFrom_plain h.no_backslash]
  rfl

theorem length_utf8Encode_le (c : Nat) : (utf8Encode c).length ≤ 4 := by
  unfold utf8Encode
  repeat' split
  all_goals simp

theorem length_utf8Encode_bmp {c : Nat} (h : c < 0x10000) : (utf8Encode c).length ≤ 3 := by
  unfold utf8Encode
  rw [if_pos h]
  repeat' split
  all_goals simp

theorem hexValue_lt {b : UInt8} {n : Nat} (h : hexValue b = some n) : n < 16 := by
  have hb := b.toNat_lt
  unfold hexValue at h
  simp only [UInt8.le_iff_toNat_le, UInt8.toNat_ofNat] at h
  repeat' split at h
  all_goals simp only [Option.some.injEq, reduceCtorEq] at h
  all_goals omega

theorem hex4_spec {bs rest : Bytes} {n : Nat} (h : hex4 bs = some (n, rest)) :
    n < 0x10000 ∧ bs.length = rest.length + 4 := by
  unfold hex4 at h
  split at h
  · simp only [Option.bind_eq_some_iff, Option.map_eq_some_iff, Prod.mk.injEq] at h
    obtain ⟨a, ha, b, hb, c, hc, d, hd, rfl, rfl⟩ := h
    have := hexValue_lt ha
    have := hexValue_lt hb
    have := hexValue_lt hc
    have := hexValue_lt hd
    refine ⟨by omega, rfl⟩
  · cases h

theorem lowSurrogate_length {bs rest : Bytes} {n : Nat} (h : lowSurrogate bs = some (n, rest)) :
    bs.length = rest.length + 6 := by
  unfold lowSurrogate at h
  split at h
  · split at h
    · obtain ⟨⟨v, r⟩, hv, h⟩ := Option.bind_eq_some_iff.mp h
      split at h
      · obtain ⟨_, rfl⟩ := Prod.mk.inj (Option.some.inj h)
        have hlen := (hex4_spec hv).2
        simp only [List.length_cons]
        omega
      · cases h
    · cases h
  · cases h

/-- **An escape is longer than what it means.** -/
theorem escape_shrinks {bs s rest : Bytes} (h : escape bs = some (s, rest)) :
    s.length + rest.length ≤ bs.length := by
  unfold escape at h
  split at h
  · cases h
  · split at h
    · obtain ⟨⟨u, r⟩, hu, h⟩ := Option.bind_eq_some_iff.mp h
      obtain ⟨hlt, hlen⟩ := hex4_spec hu
      simp only at h
      split at h
      · obtain ⟨⟨v, r'⟩, hv, h⟩ := Option.map_eq_some_iff.mp h
        have hlow := lowSurrogate_length hv
        obtain ⟨rfl, rfl⟩ := Prod.mk.inj h
        have := length_utf8Encode_le (0x10000 + (u - 0xD800) * 0x400 + v)
        simp only [List.length_cons]
        omega
      · split at h
        · cases h
        · obtain ⟨rfl, rfl⟩ := Prod.mk.inj (Option.some.inj h)
          have := length_utf8Encode_bmp hlt
          simp only [List.length_cons]
          omega
    · obtain ⟨e, _, h⟩ := Option.map_eq_some_iff.mp h
      obtain ⟨rfl, rfl⟩ := Prod.mk.inj h
      simp only [List.length_cons, List.length_nil]
      omega

theorem unescapeFrom_length : ∀ {fuel : Nat} {bs s : Bytes}, unescapeFrom fuel bs = some s →
    s.length ≤ bs.length ∧ ((0x5C : UInt8) ∈ bs → s.length < bs.length) := by
  intro fuel
  induction fuel with
  | zero =>
    intro bs s h
    cases bs with
    | nil =>
      obtain rfl := Option.some.inj h
      simp
    | cons b bs => cases h
  | succ fuel ih =>
    intro bs s h
    cases bs with
    | nil =>
      obtain rfl := Option.some.inj h
      simp
    | cons b bs =>
      rw [unescapeFrom] at h
      split at h
      · obtain ⟨⟨e, rest⟩, he, h⟩ := Option.bind_eq_some_iff.mp h
        obtain ⟨s', hs', rfl⟩ := Option.map_eq_some_iff.mp h
        have hshrink := escape_shrinks he
        have hrest : s'.length ≤ rest.length := (ih hs').1
        simp only [List.length_append, List.length_cons]
        omega
      · rename_i hb
        obtain ⟨s', hs', rfl⟩ := Option.map_eq_some_iff.mp h
        obtain ⟨hle, hlt⟩ := ih hs'
        refine ⟨Nat.succ_le_succ hle, fun hmem => ?_⟩
        rcases List.mem_cons.mp hmem with hq | hmem
        · exact absurd hq.symm hb
        · exact Nat.succ_lt_succ (hlt hmem)

/-- How a string can end that was opened before the piece `d` and its closing quote: behind that
    quote, inside `d`, or in what follows it. -/
theorem rawString_cases : ∀ {d : Bytes} {escaped : Bool} {rest r tail : Bytes},
    rawStringFrom escaped (d ++ 0x22 :: rest) = some (r, tail) →
      (r = d ∧ tail = rest ∧ (escaped = false → (0x5C : UInt8) ∉ d → Plain d)) ∨
        r.length < d.length ∨ ∃ r', rawString rest = some (r', tail) := by
  intro d
  induction d with
  | nil =>
    intro escaped rest r tail h
    cases escaped with
    | false =>
      obtain ⟨rfl, rfl⟩ := Prod.mk.inj (Option.some.inj h)
      exact .inl ⟨rfl, rfl, fun _ _ b hb => by cases hb⟩
    | true =>
      -- a backslash stands before the closing quote
      obtain ⟨⟨r', t⟩, hr', h⟩ := Option.map_eq_some_iff.mp h
      obtain ⟨_, rfl⟩ := Prod.mk.inj h
      exact .inr (.inr ⟨r', hr'⟩)
  | cons b d ih =>
    intro escaped rest r tail h
    have hstep : ∀ {e : Bool}, (rawStringFrom e (d ++ 0x22 :: rest)).map
          (fun r => (b :: r.1, r.2)) = some (r, tail) →
        (r = b :: d ∧ tail = rest ∧ (e = false → (0x5C : UInt8) ∉ d → Plain d)) ∨
          r.length < (b :: d).length ∨ ∃ r', rawString rest = some (r', tail) := by
      intro e h
      obtain ⟨⟨r', t⟩, hr', h⟩ := Option.map_eq_some_iff.mp h
      obtain ⟨rfl, rfl⟩ := Prod.mk.inj h
      rcases ih hr' with ⟨rfl, rfl, hplain⟩ | hlt | hmore
      · exact .inl ⟨rfl, rfl, hplain⟩
      · exact .inr (.inl (Nat.succ_lt_succ hlt))
      · exact .inr (.inr hmore)
    cases escaped with
    | true =>
      rcases hstep h with ⟨hr, ht, _⟩ | hrest
      · exact .inl ⟨hr, ht, fun hf => absurd hf (by decide)⟩
      · exact .inr hrest
    | false =>
      rw [List.cons_append, rawStringFrom] at h
      split at h
      · obtain ⟨rfl, rfl⟩ := Prod.mk.inj (Option.some.inj h)
        exact .inr (.inl (Nat.succ_pos _))
      · rename_i hq
        split at h
        · cases h
        · rename_i hc
          rcases hstep h with ⟨hr, ht, hplain⟩ | hrest
          · refine .inl ⟨hr, ht, fun _ hno c hcm => ?_⟩
            have hb : b ≠ 0x5C := fun hb => hno (hb ▸ List.mem_cons_self ..)
            rcases List.mem_cons.mp hcm with rfl | hcm
            · exact ⟨hq, hb, hc⟩
            · exact hplain (decide_eq_false hb) (fun hd => hno (List.mem_cons_of_mem _ hd)) c hcm
          · exact .inr hrest

/-- **A piece that is read back as itself is plain**, unless the string ran past its closing
    quote. -/
theorem parseString_cases {d rest tail : Bytes}
    (h : parseString (d ++ 0x22 :: rest) = some (d, tail)) :
    (Plain d ∧ tail = rest) ∨ ∃ r', rawString rest = some (r', tail) := by
  obtain ⟨⟨r, t⟩, hr, h⟩ := Option.bind_eq_some_iff.mp h
  obtain ⟨s, hs, h⟩ := Option.map_eq_some_iff.mp h
  obtain ⟨rfl, rfl⟩ := Prod.mk.inj h
  obtain ⟨hle, hlt⟩ := unescapeFrom_length hs
  rcases rawString_cases hr with ⟨rfl, rfl, hplain⟩ | hshort | hmore
  · refine .inl ⟨hplain rfl fun hmem => ?_, rfl⟩
    exact absurd (hlt hmem) (Nat.lt_irrefl _)
  · exact absurd (Nat.lt_of_le_of_lt hle hshort) (Nat.lt_irrefl _)
  · exact .inr hmore

/-! ## Numbers -/

/-- The last digit of a number behind the others. -/
theorem dec_eq_if (n : Nat) :
    dec n = if n < 10 then [UInt8.ofNat (48 + n)]
      else dec (n / 10) ++ [UInt8.ofNat (48 + n % 10)] := by
  unfold dec
  rw [Nat.toDigits_eq_if (by decide)]
  split
  · rename_i hlt
    simp [Nat.toNat_digitChar_of_lt_ten hlt]
  · simp [Nat.toNat_digitChar_of_lt_ten (Nat.mod_lt n (by decide : 0 < 10))]

theorem toNat_digit {d : Nat} (h : d < 10) : (UInt8.ofNat (48 + d)).toNat = 48 + d := by
  rw [UInt8.toNat_ofNat']
  omega

theorem isDigit_of_mem_dec {n : Nat} {b : UInt8} (h : b ∈ dec n) : isDigit b = true :=
  decide_eq_true (mem_dec h)

/-- A decimal text counts what it says, and has no superfluous zero. -/
theorem dec_spec (n : Nat) :
    digitsValue (dec n) = n ∧ dec n ≠ [] ∧ (0 < n → (dec n).head? ≠ some 0x30) := by
  induction n using Nat.strongRecOn with
  | ind n ih =>
    rw [dec_eq_if]
    by_cases hlt : n < 10
    · rw [if_pos hlt]
      refine ⟨?_, by simp, ?_⟩
      · simp only [digitsValue, List.foldl_cons, List.foldl_nil, toNat_digit hlt]
        omega
      · intro hpos hq
        have hz := congrArg UInt8.toNat (Option.some.inj hq)
        rw [toNat_digit hlt] at hz
        simp at hz
        omega
    · rw [if_neg hlt]
      obtain ⟨hval, hne, hhead⟩ := ih (n / 10) (by omega)
      have hmod : n % 10 < 10 := Nat.mod_lt _ (by decide)
      refine ⟨?_, by simp, ?_⟩
      · rw [digitsValue, List.foldl_append, ← digitsValue, hval]
        simp only [List.foldl_cons, List.foldl_nil, toNat_digit hmod]
        omega
      · intro _
        rw [List.head?_append_of_ne_nil _ hne]
        exact hhead (by omega)

/-- What stands behind a value in an object. -/
def Ends (rest : Bytes) : Prop := ∃ b r, rest = b :: r ∧ (b = 0x2C ∨ b = 0x7D)

/-- A decimal numeral: a sign, an integer, and the digits behind the point if there are any. -/
def numeral (neg : Bool) (k : Nat) (frac : Bytes) : Bytes :=
  (if neg then [0x2D] else []) ++ (dec k ++ if frac = [] then [] else 0x2E :: frac)

/-- The number a numeral is. -/
def numeralValue (neg : Bool) (k : Nat) (frac : Bytes) : ℚ :=
  (if neg then -1 else 1) * ((k : ℚ) + (digitsValue frac : ℚ) / 10 ^ frac.length)

theorem span_digits {ds rest : Bytes} (hds : ∀ b ∈ ds, isDigit b = true)
    (hrest : ∀ b r, rest = b :: r → isDigit b = false) :
    (ds ++ rest).takeWhile isDigit = ds ∧ (ds ++ rest).dropWhile isDigit = rest := by
  rw [List.takeWhile_append_of_pos hds, List.dropWhile_append_of_pos hds]
  cases rest with
  | nil => simp
  | cons b r => simp [hrest b r rfl]

theorem parseExponent_ends {rest : Bytes} (h : Ends rest) :
    parseExponent rest = some (1, rest) := by
  obtain ⟨b, r, rfl, rfl | rfl⟩ := h
  · rfl
  · rfl

theorem Ends.no_digit {rest : Bytes} (h : Ends rest) :
    ∀ b r, rest = b :: r → isDigit b = false := by
  obtain ⟨b, r, rfl, hb⟩ := h
  intro c r' hq
  obtain ⟨rfl, _⟩ := List.cons.inj hq
  rcases hb with rfl | rfl
  · rfl
  · rfl

/-- The part of a numeral behind its integer. -/
theorem parseFraction_numeral {frac rest : Bytes} (hfrac : ∀ b ∈ frac, isDigit b = true)
    (h : Ends rest) :
    parseFraction ((if frac = [] then [] else 0x2E :: frac) ++ rest) =
      some ((digitsValue frac : ℚ) / 10 ^ frac.length, rest) := by
  by_cases hnil : frac = []
  · subst hnil
    obtain ⟨b, r, rfl, rfl | rfl⟩ := h
    · simp [parseFraction, digitsValue]
    · simp [parseFraction, digitsValue]
  · obtain ⟨htake, hdrop⟩ := span_digits hfrac h.no_digit
    rw [if_neg hnil, List.cons_append, parseFraction, if_pos rfl, htake, if_neg hnil, hdrop]

/-- **A numeral is read as its number.** -/
theorem parseNumber_numeral (neg : Bool) (k : Nat) {frac rest : Bytes}
    (hfrac : ∀ b ∈ frac, isDigit b = true) (h : Ends rest) :
    parseNumber (numeral neg k frac ++ rest) = some (numeralValue neg k frac, rest) := by
  obtain ⟨hval, hne, hhead⟩ := dec_spec k
  have hdig : ∀ b ∈ dec k, isDigit b = true := fun b hb => isDigit_of_mem_dec hb
  have hpoint : ∀ b r, (if frac = [] then [] else 0x2E :: frac) ++ rest = b :: r →
      isDigit b = false := by
    by_cases hnil : frac = []
    · rw [if_pos hnil]
      exact h.no_digit
    · rw [if_neg hnil]
      intro b r hq
      obtain ⟨rfl, _⟩ := List.cons.inj hq
      rfl
  have hzero : ¬(dec k = [] ∨ ((dec k).head? = some 0x30 ∧ 1 < (dec k).length)) := by
    rintro (hnil | ⟨hz, hlen⟩)
    · exact hne hnil
    · cases Nat.eq_zero_or_pos k with
      | inl hk =>
        subst hk
        exact absurd hlen (by decide)
      | inr hk => exact hhead hk hz
  obtain ⟨htake, hdrop⟩ := span_digits hdig hpoint
  -- the sign is read off the first byte, which is a digit if there is none
  have hsign : (decide ((numeral neg k frac ++ rest).head? = some 0x2D)) = neg ∧
      (if neg then (numeral neg k frac ++ rest).tail else numeral neg k frac ++ rest) =
        dec k ++ ((if frac = [] then [] else 0x2E :: frac) ++ rest) := by
    cases neg with
    | true => simp [numeral]
    | false =>
      obtain ⟨d, ds, hd⟩ := List.exists_cons_of_ne_nil hne
      have hdd : d ≠ 0x2D := by
        rintro rfl
        have := hdig 0x2D (hd ▸ List.mem_cons_self ..)
        exact absurd this (by decide)
      simp [numeral, hd, hdd]
  unfold parseNumber
  simp only [hsign.1, hsign.2, htake, hdrop, if_neg hzero, parseFraction_numeral hfrac h,
    Option.bind_some, parseExponent_ends h, Option.map_some, hval, mul_one]
  rfl

/-- A text that is read as the number `q`, whatever comes after it. -/
structure NumberText (t : Bytes) (q : ℚ) : Prop where
  head : ∃ b t', t = b :: t' ∧ (b = 0x2D ∨ isDigit b = true)
  low : ∀ b ∈ t, b ≤ 0x7F
  reads : ∀ rest, Ends rest → parseNumber (t ++ rest) = some (q, rest)

theorem isDigit_low {b : UInt8} (h : isDigit b = true) : b ≤ 0x7F := by
  simp only [isDigit, UInt8.le_iff_toNat_le, UInt8.toNat_ofNat, decide_eq_true_eq] at h ⊢
  omega

theorem numberText_numeral (neg : Bool) (k : Nat) {frac : Bytes}
    (hfrac : ∀ b ∈ frac, isDigit b = true) :
    NumberText (numeral neg k frac) (numeralValue neg k frac) where
  head := by
    obtain ⟨d, ds, hd⟩ := List.exists_cons_of_ne_nil (dec_spec k).2.1
    cases neg with
    | true => exact ⟨0x2D, _, rfl, .inl rfl⟩
    | false =>
      refine ⟨d, _, by rw [numeral, hd]; rfl, .inr ?_⟩
      exact isDigit_of_mem_dec (hd ▸ List.mem_cons_self ..)
  low := by
    intro b hb
    rcases List.mem_append.mp hb with hb | hb
    · split at hb
      · rw [List.mem_singleton.mp hb]
        decide
      · cases hb
    · rcases List.mem_append.mp hb with hb | hb
      · exact isDigit_low (isDigit_of_mem_dec hb)
      · split at hb
        · cases hb
        · rcases List.mem_cons.mp hb with rfl | hb
          · decide
          · exact isDigit_low (hfrac b hb)
  reads := fun _ h => parseNumber_numeral neg k hfrac h

/-! ## Objects -/

/-- What is pasted in behind a key: the inside of a string, or a text that is the number `value`,
    or (`none`) no JSON value at all. -/
inductive Piece where
  | quoted (raw : Bytes)
  | bare (text : Bytes) (value : Option ℚ)

namespace Piece

/-- The bytes that are pasted. -/
def body : Piece → Bytes
  | .quoted raw => raw
  | .bare text _ => text

/-- As it stands in the object. -/
def text : Piece → Bytes
  | .quoted raw => 0x22 :: (raw ++ [0x22])
  | .bare text _ => text

/-- A bare piece is what it is said to be. -/
def Known : Piece → Prop
  | .quoted _ => True
  | .bare text (some q) => NumberText text q
  | .bare text none => ∀ fuel rest, parseValue fuel (text ++ rest) = none

/-- What makes the reader come out behind a piece with the value that was meant. -/
def Clean : Piece → Prop
  | .quoted raw => Plain raw
  | .bare _ value => value.isSome = true

/-- The value that was meant. -/
def json : Piece → Json ℚ
  | .quoted raw => .string raw
  | .bare _ value => .number (value.getD 0)

end Piece

/-- A key of the program's own. -/
structure GoodKey (key : Bytes) : Prop where
  plain : Plain key
  low : ∀ b ∈ key, b ≤ 0x7F
  head : ∃ x key', key = x :: key' ∧ x ≠ 0x20 ∧ x ≠ 0x2C ∧ x ≠ 0x7D

def renderMember (m : Bytes × Piece) (rest : Bytes) : Bytes :=
  0x22 :: (m.1 ++ 0x22 :: 0x3A :: (m.2.text ++ rest))

/-- What stands behind a member: the others, and the closing brace. -/
def renderRest : List (Bytes × Piece) → Bytes
  | [] => [0x7D]
  | m :: ms => 0x2C :: renderMember m (renderRest ms)

/-- The object of a first member and the others. -/
def renderObject (m : Bytes × Piece) (ms : List (Bytes × Piece)) : Bytes :=
  0x7B :: renderMember m (renderRest ms)

theorem ends_renderRest (ms : List (Bytes × Piece)) : Ends (renderRest ms) := by
  cases ms with
  | nil => exact ⟨0x7D, [], rfl, .inr rfl⟩
  | cons m ms => exact ⟨0x2C, _, rfl, .inl rfl⟩

theorem skipWs_cons {b : UInt8} (bs : Bytes) (hb : isWs b = false) :
    skipWs (b :: bs) = b :: bs := by
  rw [skipWs, List.dropWhile_cons_of_neg (by simp [hb])]

theorem isWs_eq_false {b : UInt8} (hctl : ¬b < 0x20) (hspace : b ≠ 0x20) : isWs b = false := by
  cases hw : isWs b with
  | false => rfl
  | true =>
    simp only [isWs, decide_eq_true_eq] at hw
    rcases hw with rfl | rfl | rfl | rfl
    · exact absurd rfl hspace
    all_goals exact absurd (by decide) hctl

theorem ne_of_isDigit {b c : UInt8} (hb : isDigit b = true) (hc : isDigit c = false) : b ≠ c := by
  rintro rfl
  rw [hb] at hc
  cases hc

theorem isWs_of_isDigit {b : UInt8} (hb : isDigit b = true) : isWs b = false := by
  have hlow : (0x30 : UInt8) ≤ b := (of_decide_eq_true hb).1
  refine isWs_eq_false ?_ (ne_of_isDigit hb rfl)
  exact UInt8.not_lt.mpr (UInt8.le_trans (by decide) hlow)

theorem expect_self {c : UInt8} (bs : Bytes) (hc : isWs c = false) :
    expect c (c :: bs) = some bs := by
  simp [expect, skipWs_cons bs hc]

theorem expect_other {b c : UInt8} (bs : Bytes) (hb : isWs b = false) (hne : b ≠ c) :
    expect c (b :: bs) = none := by
  simp [expect, skipWs_cons bs hb, hne]

/-! ### One member -/

theorem parseMembers_member (fuel : Nat) {key rest : Bytes} (hkey : Plain key) :
    parseMembers (fuel + 1) (0x22 :: (key ++ 0x22 :: 0x3A :: rest)) =
      (parseValue fuel rest).bind fun value =>
        match expect 0x2C value.2 with
        | some rest => (parseMembers fuel rest).map fun ms => ((key, value.1) :: ms.1, ms.2)
        | none => (expect 0x7D value.2).map fun rest => ([(key, value.1)], rest) := by
  rewrite [parseMembers, expect_self _ (by decide), Option.bind_some, parseString_plain _ hkey,
    Option.bind_some, expect_self _ (by decide), Option.bind_some]
  rfl

theorem parseValue_quoted (fuel : Nat) (rest : Bytes) :
    parseValue (fuel + 1) (0x22 :: rest) =
      (parseString rest).map fun r => (.string r.1, r.2) := by
  rw [parseValue, skipWs_cons rest (by decide)]
  rfl

theorem parseValue_number (fuel : Nat) {t rest : Bytes} {q : ℚ} (h : NumberText t q)
    (hrest : Ends rest) : parseValue (fuel + 1) (t ++ rest) = some (.number q, rest) := by
  obtain ⟨b, t', rfl, hb⟩ := h.head
  have hread := h.reads rest hrest
  have hother : isWs b = false ∧ b ≠ 0x7B ∧ b ≠ 0x5B ∧ b ≠ 0x22 := by
    rcases hb with rfl | hb
    · decide
    · exact ⟨isWs_of_isDigit hb, ne_of_isDigit hb rfl, ne_of_isDigit hb rfl, ne_of_isDigit hb rfl⟩
  obtain ⟨hw, h1, h2, h3⟩ := hother
  rw [List.cons_append, parseValue, skipWs_cons _ hw]
  simp only
  rw [if_neg h1, if_neg h2, if_neg h3, if_pos hb, ← List.cons_append, hread]
  rfl

/-- A clean piece is read as the value that was meant. -/
theorem parseValue_clean (fuel : Nat) {p : Piece} {rest : Bytes} (hknown : p.Known)
    (hclean : p.Clean) (hrest : Ends rest) :
    parseValue (fuel + 1) (p.text ++ rest) = some (p.json, rest) := by
  cases p with
  | quoted raw =>
    have htext : (Piece.quoted raw).text ++ rest = 0x22 :: (raw ++ 0x22 :: rest) := by
      simp [Piece.text]
    rw [htext, parseValue_quoted, parseString_plain _ hclean]
    rfl
  | bare text value =>
    cases value with
    | none => cases hclean
    | some q => exact parseValue_number fuel hknown hrest

/-! ### All members -/

theorem parseMembers_render :
    ∀ (ms : List (Bytes × Piece)) (m : Bytes × Piece) (fuel : Nat),
      (∀ m' ∈ m :: ms, GoodKey m'.1 ∧ m'.2.Known ∧ m'.2.Clean) → ms.length + 2 ≤ fuel →
      parseMembers fuel (renderMember m (renderRest ms)) =
        some ((m :: ms).map fun m => (m.1, m.2.json), []) := by
  intro ms
  induction ms with
  | nil =>
    intro m fuel h hfuel
    obtain ⟨fuel, rfl⟩ : ∃ f, fuel = f + 2 := ⟨fuel - 2, by simp at hfuel; omega⟩
    obtain ⟨hkey, hknown, hclean⟩ := h m (List.mem_cons_self ..)
    rw [renderMember, parseMembers_member _ hkey.plain,
      parseValue_clean _ hknown hclean (ends_renderRest _)]
    rfl
  | cons m' ms ih =>
    intro m fuel h hfuel
    obtain ⟨fuel, rfl⟩ : ∃ f, fuel = f + 2 := ⟨fuel - 2, by simp at hfuel; omega⟩
    obtain ⟨hkey, hknown, hclean⟩ := h m (List.mem_cons_self ..)
    have hrest := ih m' (fuel + 1) (fun x hx => h x (List.mem_cons_of_mem _ hx)) (by
      simp only [List.length_cons] at hfuel
      omega)
    rw [renderMember, parseMembers_member _ hkey.plain,
      parseValue_clean _ hknown hclean (ends_renderRest _), Option.bind_some, renderRest,
      expect_self _ (by decide)]
    simp only [hrest]
    rfl

/-- A string that ran past its closing quote is not followed by what must follow it. -/
theorem no_end_past_quote {ms : List (Bytes × Piece)} (hkeys : ∀ m ∈ ms, GoodKey m.1)
    {raw tail : Bytes} (h : rawString (renderRest ms) = some (raw, tail)) :
    expect 0x2C tail = none ∧ expect 0x7D tail = none := by
  cases ms with
  | nil => cases h
  | cons m ms =>
    obtain ⟨hplain, _, x, key', hx, hsp, hcomma, hbrace⟩ := hkeys m (List.mem_cons_self ..)
    obtain ⟨_, rfl⟩ := Prod.mk.inj (Option.some.inj h)
    have hctl : ¬x < 0x20 := (hplain x (hx ▸ List.mem_cons_self ..)).2.2
    have hw : isWs x = false := isWs_eq_false hctl hsp
    -- the string ended at the opening quote of the key, and the key comes next
    simp only [hx, List.cons_append]
    exact ⟨expect_other _ hw hcomma, expect_other _ hw hbrace⟩

/-- What the first member was read as. -/
theorem parseMembers_head {fuel : Nat} {m : Bytes × Piece} {rest tail : Bytes}
    {members : List (Bytes × Json ℚ)} (hkey : Plain m.1)
    (h : parseMembers fuel (renderMember m rest) = some (members, tail)) :
    ∃ f value rest', fuel = f + 1 ∧ parseValue f (m.2.text ++ rest) = some (value, rest') ∧
      ((∃ r members', expect 0x2C rest' = some r ∧ parseMembers f r = some (members', tail) ∧
          members = (m.1, value) :: members') ∨
        (expect 0x2C rest' = none ∧ expect 0x7D rest' = some tail ∧
          members = [(m.1, value)])) := by
  cases fuel with
  | zero => cases h
  | succ f =>
    rw [renderMember, parseMembers_member f hkey] at h
    obtain ⟨⟨value, rest'⟩, hv, h⟩ := Option.bind_eq_some_iff.mp h
    refine ⟨f, value, rest', rfl, hv, ?_⟩
    simp only at h
    split at h
    · rename_i r hr
      obtain ⟨⟨members', t⟩, hm, h⟩ := Option.map_eq_some_iff.mp h
      obtain ⟨rfl, rfl⟩ := Prod.mk.inj h
      exact .inl ⟨r, members', hr, hm, rfl⟩
    · rename_i hr
      obtain ⟨t, ht, h⟩ := Option.map_eq_some_iff.mp h
      obtain ⟨rfl, rfl⟩ := Prod.mk.inj h
      exact .inr ⟨hr, ht, rfl⟩

theorem quoted_inj {key key' raw raw' : Bytes}
    (h : (key, Piece.quoted raw) = (key', Piece.quoted raw')) : key = key' ∧ raw = raw' := by
  obtain ⟨hkey, hraw⟩ := Prod.mk.inj h
  exact ⟨hkey, Piece.quoted.inj hraw⟩

/-- The strings of a text are found under their keys as they went in, those that are plain by
    themselves apart. -/
def Faithful (ms : List (Bytes × Piece)) (members : List (Bytes × Json ℚ)) : Prop :=
  ∀ key raw, (key, Piece.quoted raw) ∈ ms →
    Plain raw ∨ ((Json.object members).member key).bind string? = some raw

theorem member_head (key : Bytes) (value : Json ℚ) (members : List (Bytes × Json ℚ)) :
    (Json.object ((key, value) :: members)).member key = some value := by
  simp [member]

theorem member_skip {key key' : Bytes} (value : Json ℚ) (members : List (Bytes × Json ℚ))
    (hne : key ≠ key') :
    (Json.object ((key, value) :: members)).member key' = (Json.object members).member key' := by
  simp [member, hne]

/-- A string that comes out as it went in was clean, and the reader stands behind it. -/
theorem clean_of_parseValue {f : Nat} {p : Piece} {ms : List (Bytes × Piece)} {value : Json ℚ}
    {rest' : Bytes} (hkeys : ∀ m ∈ ms, GoodKey m.1) (hknown : p.Known)
    (hv : parseValue f (p.text ++ renderRest ms) = some (value, rest'))
    (hsame : ∀ raw, p = .quoted raw → Plain raw ∨ value.string? = some raw)
    (hends : expect 0x2C rest' ≠ none ∨ expect 0x7D rest' ≠ none) :
    rest' = renderRest ms ∧ p.Clean := by
  cases f with
  | zero => cases hv
  | succ f =>
    cases p with
    | quoted raw =>
      have htext : (Piece.quoted raw).text ++ renderRest ms =
          0x22 :: (raw ++ 0x22 :: renderRest ms) := by simp [Piece.text]
      rw [htext, parseValue_quoted] at hv
      obtain ⟨⟨s, t⟩, hs, hv⟩ := Option.map_eq_some_iff.mp hv
      obtain ⟨rfl, rfl⟩ := Prod.mk.inj hv
      -- a plain piece is read as itself; another one has come out as itself
      rcases hsame raw rfl with hplain | hsame
      · rw [parseString_plain _ hplain] at hs
        exact ⟨(Prod.mk.inj (Option.some.inj hs)).2.symm, hplain⟩
      · obtain rfl : s = raw := Option.some.inj hsame
        rcases parseString_cases hs with ⟨hplain, ht⟩ | ⟨r', hr'⟩
        · exact ⟨ht, hplain⟩
        · obtain ⟨hc, hb⟩ := no_end_past_quote hkeys hr'
          rcases hends with he | he
          · exact absurd hc he
          · exact absurd hb he
    | bare text v =>
      cases v with
      | none =>
        rw [Piece.text, hknown (f + 1) _] at hv
        cases hv
      | some q =>
        rw [Piece.text, parseValue_number f hknown (ends_renderRest ms)] at hv
        obtain ⟨_, rfl⟩ := Prod.mk.inj (Option.some.inj hv)
        exact ⟨rfl, rfl⟩

/-- The first member was clean, and the others were read from their place. -/
theorem parseMembers_first {fuel : Nat} {m : Bytes × Piece} {ms : List (Bytes × Piece)}
    {members : List (Bytes × Json ℚ)} {tail : Bytes}
    (hgood : ∀ m' ∈ m :: ms, GoodKey m'.1 ∧ m'.2.Known)
    (hparse : parseMembers fuel (renderMember m (renderRest ms)) = some (members, tail))
    (hfaith : Faithful (m :: ms) members) :
    m.2.Clean ∧ ∀ m₁ ms', ms = m₁ :: ms' → ∃ f value members',
      parseMembers f (renderMember m₁ (renderRest ms')) = some (members', tail) ∧
        members = (m.1, value) :: members' := by
  obtain ⟨hkey, hknown⟩ := hgood m (List.mem_cons_self ..)
  obtain ⟨f, value, rest', rfl, hv, hend⟩ := parseMembers_head hkey.plain hparse
  have hsame : ∀ raw, m.2 = .quoted raw → Plain raw ∨ value.string? = some raw := by
    intro raw hq
    have hf := hfaith m.1 raw (by rw [← hq]; exact List.mem_cons_self ..)
    rcases hend with ⟨_, _, _, _, rfl⟩ | ⟨_, _, rfl⟩
    · rw [member_head] at hf
      exact hf
    · rw [member_head] at hf
      exact hf
  have hends : expect 0x2C rest' ≠ none ∨ expect 0x7D rest' ≠ none := by
    rcases hend with ⟨_, _, hc, _, _⟩ | ⟨_, hb, _⟩
    · exact .inl (by rw [hc]; simp)
    · exact .inr (by rw [hb]; simp)
  obtain ⟨rfl, hclean⟩ := clean_of_parseValue
    (fun x hx => (hgood x (List.mem_cons_of_mem _ hx)).1) hknown hv hsame hends
  refine ⟨hclean, ?_⟩
  rintro m₁ ms' rfl
  rw [renderRest, expect_self _ (by decide)] at hend
  rcases hend with ⟨r, members', hr, hm, rfl⟩ | ⟨hq, _, _⟩
  · obtain rfl := Option.some.inj hr
    exact ⟨f, value, members', hm, rfl⟩
  · cases hq

/-- **A text whose strings come out as they went in was made of clean pieces**, by induction over
    the members: a piece is read from the right place because those before it were clean. -/
theorem clean_of_parseMembers :
    ∀ (ms : List (Bytes × Piece)) (m : Bytes × Piece) (fuel : Nat)
      (members : List (Bytes × Json ℚ)) (tail : Bytes),
      (∀ m' ∈ m :: ms, GoodKey m'.1 ∧ m'.2.Known) → ((m :: ms).map Prod.fst).Nodup →
      parseMembers fuel (renderMember m (renderRest ms)) = some (members, tail) →
      Faithful (m :: ms) members → ∀ m' ∈ m :: ms, m'.2.Clean := by
  intro ms
  induction ms with
  | nil =>
    intro m fuel members tail hgood _ hparse hfaith m' hm'
    rw [List.mem_singleton.mp hm']
    exact (parseMembers_first hgood hparse hfaith).1
  | cons m₁ ms ih =>
    intro m fuel members tail hgood hnodup hparse hfaith m' hm'
    obtain ⟨hclean, hmore⟩ := parseMembers_first hgood hparse hfaith
    rcases List.mem_cons.mp hm' with rfl | hm'
    · exact hclean
    · obtain ⟨f, value, members', hparse', rfl⟩ := hmore m₁ ms rfl
      obtain ⟨hnew, hnodup'⟩ := List.nodup_cons.mp hnodup
      have hrest : Faithful (m₁ :: ms) members' := by
        intro key raw hmem
        have hne : m.1 ≠ key := fun hq => hnew (hq ▸ List.mem_map_of_mem hmem)
        rw [← member_skip value members' hne]
        exact hfaith key raw (List.mem_cons_of_mem _ hmem)
      exact ih m₁ f members' tail (fun x hx => hgood x (List.mem_cons_of_mem _ hx)) hnodup' hparse'
        hrest m' hm'

/-! ### The whole text -/

theorem isUtf8_renderMember (m : Bytes × Piece) (rest : Bytes) (hkey : ∀ b ∈ m.1, b ≤ 0x7F)
    {c : UInt8} (hc : c ≤ 0x7F) :
    isUtf8 (renderMember m (c :: rest)) = (isUtf8 m.2.body && isUtf8 rest) := by
  have hk : isUtf8 m.1 = true := isUtf8_of_ascii hkey
  rw [renderMember, isUtf8_cons _ (by decide), isUtf8_append_cons _ _ (by decide), hk,
    Bool.true_and, isUtf8_cons _ (by decide)]
  cases hp : m.2 with
  | quoted raw =>
    have htext : (Piece.quoted raw).text ++ c :: rest = 0x22 :: (raw ++ 0x22 :: c :: rest) := by
      simp [Piece.text]
    rw [htext, isUtf8_cons _ (by decide), isUtf8_append_cons _ _ (by decide), isUtf8_cons _ hc]
    rfl
  | bare text v => rw [Piece.text, isUtf8_append_cons _ _ hc, Piece.body]

/-- The text is UTF-8 exactly when every piece is. -/
theorem isUtf8_renderObject :
    ∀ (ms : List (Bytes × Piece)) (m : Bytes × Piece), (∀ m' ∈ m :: ms, GoodKey m'.1) →
      (isUtf8 (renderObject m ms) = true ↔ ∀ m' ∈ m :: ms, isUtf8 m'.2.body = true) := by
  intro ms
  induction ms with
  | nil =>
    intro m hkeys
    rw [renderObject, isUtf8_cons _ (by decide), renderRest,
      isUtf8_renderMember m [] (hkeys m (List.mem_cons_self ..)).low (by decide)]
    have hnil : isUtf8 [] = true := rfl
    simp [hnil]
  | cons m₁ ms ih =>
    intro m hkeys
    have hrest := ih m₁ fun x hx => hkeys x (List.mem_cons_of_mem _ hx)
    rw [renderObject, isUtf8_cons _ (by decide)] at hrest
    rw [renderObject, isUtf8_cons _ (by decide), renderRest,
      isUtf8_renderMember m _ (hkeys m (List.mem_cons_self ..)).low (by decide),
      Bool.and_eq_true, hrest]
    simp only [List.mem_cons, forall_eq_or_imp]

theorem length_renderRest (ms : List (Bytes × Piece)) :
    ms.length + 1 ≤ (renderRest ms).length := by
  induction ms with
  | nil => exact Nat.le_refl _
  | cons m ms ih =>
    simp only [renderRest, renderMember, List.length_cons, List.length_append]
    omega

theorem parse_renderObject_eq (m : Bytes × Piece) (ms : List (Bytes × Piece)) :
    parse (renderObject m ms) =
      if isUtf8 (renderObject m ms) then
        (parseMembers (renderObject m ms).length (renderMember m (renderRest ms))).bind fun r =>
          if skipWs r.2 = [] then some (.object r.1) else none
      else none := by
  have hopen : expect 0x7D (renderMember m (renderRest ms)) = none :=
    expect_other _ (by decide) (by decide)
  have hvalue : parseValue ((renderObject m ms).length + 1) (renderObject m ms) =
      (parseMembers (renderObject m ms).length (renderMember m (renderRest ms))).map
        fun r => (.object r.1, r.2) := by
    rw [parseValue, renderObject, skipWs_cons _ (by decide)]
    simp only [if_true, hopen]
  rw [parse, hvalue]
  simp only [Option.bind_map]
  rfl

/-- **Clean pieces come out as they went in.** -/
theorem parse_renderObject {m : Bytes × Piece} {ms : List (Bytes × Piece)}
    (hgood : ∀ m' ∈ m :: ms, GoodKey m'.1 ∧ m'.2.Known ∧ m'.2.Clean)
    (hutf8 : ∀ m' ∈ m :: ms, isUtf8 m'.2.body = true) :
    parse (renderObject m ms) = some (.object ((m :: ms).map fun m => (m.1, m.2.json))) := by
  have hlen := length_renderRest ms
  have hfuel : ms.length + 2 ≤ (renderObject m ms).length := by
    simp only [renderObject, renderMember, List.length_cons, List.length_append]
    omega
  have htext := (isUtf8_renderObject ms m fun m' h => (hgood m' h).1).mpr hutf8
  rw [parse_renderObject_eq, if_pos htext, parseMembers_render ms m _ hgood hfuel]
  rfl

theorem member_map {key : Bytes} {p : Piece} : ∀ {ms : List (Bytes × Piece)},
    (ms.map Prod.fst).Nodup → (key, p) ∈ ms →
      (Json.object (ms.map fun m => (m.1, m.2.json))).member key = some p.json := by
  intro ms
  induction ms with
  | nil =>
    intro _ h
    cases h
  | cons m ms ih =>
    intro hnodup h
    obtain ⟨hnew, hnodup'⟩ := List.nodup_cons.mp hnodup
    rcases List.mem_cons.mp h with rfl | h
    · exact member_head _ _ _
    · have hne : m.1 ≠ key := fun hq => hnew (hq ▸ List.mem_map_of_mem h)
      rw [List.map_cons, member_skip _ _ hne]
      exact ih hnodup' h

theorem Piece.Known.isUtf8_bare {text : Bytes} {value : Option ℚ}
    (h : (Piece.bare text value).Known) (hclean : (Piece.bare text value).Clean) :
    isUtf8 text = true := by
  cases value with
  | none => cases hclean
  | some q => exact isUtf8_of_ascii (NumberText.low h)

/-- **A pasted object that says what was meant is made of clean pieces.** -/
theorem clean_of_parse {m : Bytes × Piece} {ms : List (Bytes × Piece)}
    {members : List (Bytes × Json ℚ)} (hgood : ∀ m' ∈ m :: ms, GoodKey m'.1 ∧ m'.2.Known)
    (hnodup : ((m :: ms).map Prod.fst).Nodup)
    (hparse : parse (renderObject m ms) = some (.object members))
    (hfaith : Faithful (m :: ms) members) :
    ∀ m' ∈ m :: ms, m'.2.Clean ∧ isUtf8 m'.2.body = true := by
  rw [parse_renderObject_eq] at hparse
  split at hparse
  · rename_i htext
    obtain ⟨⟨members', tail⟩, hm, hparse⟩ := Option.bind_eq_some_iff.mp hparse
    split at hparse
    · obtain rfl := Json.object.inj (Option.some.inj hparse)
      have hclean := clean_of_parseMembers ms m _ members' tail hgood hnodup hm hfaith
      have hutf8 := (isUtf8_renderObject ms m fun m' h => (hgood m' h).1).mp htext
      exact fun m' hm' => ⟨hclean m' hm', hutf8 m' hm'⟩
    · cases hparse
  · cases hparse

/-! ### The pieces of a program -/

/-- A check of a key. -/
def keyOk (key : Bytes) : Bool :=
  key.all (fun b => b != 0x22 && b != 0x5C && !decide (b < 0x20) && decide (b ≤ 0x7F)) &&
    match key with
    | [] => false
    | x :: _ => x != 0x20 && x != 0x2C && x != 0x7D

theorem goodKey_of_keyOk {key : Bytes} (h : keyOk key = true) : GoodKey key := by
  simp only [keyOk, Bool.and_eq_true, List.all_eq_true, bne_iff_ne, Bool.not_eq_true',
    decide_eq_false_iff_not, decide_eq_true_eq] at h
  obtain ⟨hall, hhead⟩ := h
  cases key with
  | nil => cases hhead
  | cons x key =>
    simp only [Bool.and_eq_true, bne_iff_ne] at hhead
    refine ⟨fun b hb => ?_, fun b hb => (hall b hb).2, x, key, rfl, hhead.1.1, hhead.1.2, hhead.2⟩
    obtain ⟨⟨⟨hq, hbs⟩, hctl⟩, _⟩ := hall b hb
    exact ⟨hq, hbs, hctl⟩

theorem numberText_dec (n : Nat) : NumberText (dec n) n := by
  have h : NumberText (numeral false n []) (numeralValue false n []) :=
    numberText_numeral false n fun b hb => by cases hb
  simpa [numeral, numeralValue, digitsValue] using h

/-- `inf` and `nan` are no JSON, with a sign or without. -/
theorem no_value_inf_nan (neg : Bool) (fuel : Nat) (rest : Bytes) :
    parseValue fuel ((if neg then ascii "-" else []) ++ ascii "inf" ++ rest) = none ∧
      parseValue fuel ((if neg then ascii "-" else []) ++ ascii "nan" ++ rest) = none := by
  cases fuel with
  | zero => exact ⟨rfl, rfl⟩
  | succ fuel =>
    cases neg with
    | true => exact ⟨rfl, rfl⟩
    | false => exact ⟨rfl, rfl⟩

end Json
end Lib
end EdgeFlow
