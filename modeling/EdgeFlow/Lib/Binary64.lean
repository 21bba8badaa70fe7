import Mathlib.Data.Int.Log
import Mathlib.Data.Rat.Floor
import Mathlib.Tactic.Linarith
import Mathlib.Tactic.NormNum
import EdgeFlow.Lib.CDouble

/-!
# `Binary64` — the machine's `double`

A finite number is a sign and a magnitude `m * 2^e` with 53 bits for `m`; an operation is done on
the exact numbers and its result rounded to nearest, ties to even. That is how the standard says
it, and it is how it is written here: `roundMagnitude` is a function on `ℚ`, with no registers or
guard bits.

What a program gets out of it is at the end. `Close ε b q` says that a `double` stands for the
exact number `q`: it is within `ε` of it, and equal to it where `q` is whole. Numbers with one
decimal place stay `Close` through the products and differences below, and a comparison of such a
number with a whole one comes out as it does on the exact numbers.
-/

set_option autoImplicit false

namespace EdgeFlow
namespace Lib

/-! ## Rounding -/

/-- The nearest integer, and of two the even one. -/
def roundEven (x : ℚ) : ℤ :=
  let r := x - ⌊x⌋
  if r < 1 / 2 then ⌊x⌋
  else if 1 / 2 < r then ⌊x⌋ + 1
  else if ⌊x⌋ % 2 = 0 then ⌊x⌋ else ⌊x⌋ + 1

theorem roundEven_cases (x : ℚ) :
    (roundEven x = ⌊x⌋ ∧ x - ⌊x⌋ ≤ 1 / 2) ∨ (roundEven x = ⌊x⌋ + 1 ∧ 1 / 2 ≤ x - ⌊x⌋) := by
  unfold roundEven
  dsimp only
  split_ifs with h₁ h₂ h₃
  · exact .inl ⟨rfl, h₁.le⟩
  · exact .inr ⟨rfl, h₂.le⟩
  · exact .inl ⟨rfl, not_lt.mp h₂⟩
  · exact .inr ⟨rfl, not_lt.mp h₁⟩

theorem abs_roundEven_sub_le (x : ℚ) : |(roundEven x : ℚ) - x| ≤ 1 / 2 := by
  have hle := Int.floor_le x
  have hlt := Int.lt_floor_add_one x
  rw [abs_le]
  rcases roundEven_cases x with ⟨h, hr⟩ | ⟨h, hr⟩ <;> rw [h] <;> push_cast <;>
    constructor <;> linarith

/-- An integer less than a half away is the one that is rounded to. -/
theorem roundEven_eq_of_near {x : ℚ} {n : ℤ} (h : |x - n| < 1 / 2) : roundEven x = n := by
  have hround := abs_le.mp (abs_roundEven_sub_le x)
  have hnear := abs_lt.mp h
  have hlt : (roundEven x : ℚ) - n < 1 := by linarith
  have hgt : -1 < (roundEven x : ℚ) - n := by linarith
  have h1 : roundEven x - n < 1 := by exact_mod_cast hlt
  have h2 : -1 < roundEven x - n := by exact_mod_cast hgt
  omega

@[simp] theorem roundEven_intCast (n : ℤ) : roundEven n = n :=
  roundEven_eq_of_near (by norm_num)

/-- The exponent of the last of the 53 bits of a number, which the subnormal ones share. -/
def lastPlace (q : ℚ) : ℤ := max (Int.log 2 q - 52) (-1074)

/-- A magnitude rounded to 53 bits, before it is checked for overflow. -/
def roundMagnitude (q : ℚ) : ℚ := roundEven (q / 2 ^ lastPlace q) * 2 ^ lastPlace q

theorem zpow_two_pos (e : ℤ) : (0 : ℚ) < 2 ^ e := zpow_pos (by norm_num) e

theorem abs_roundMagnitude_sub_le (q : ℚ) :
    |roundMagnitude q - q| ≤ 2 ^ lastPlace q / 2 := by
  have hpos := zpow_two_pos (lastPlace q)
  have hq : q = q / 2 ^ lastPlace q * 2 ^ lastPlace q := (div_mul_cancel₀ q hpos.ne').symm
  have hround := abs_roundEven_sub_le (q / 2 ^ lastPlace q)
  calc |roundMagnitude q - q|
      = |(roundEven (q / 2 ^ lastPlace q) - q / 2 ^ lastPlace q) * 2 ^ lastPlace q| := by
        rw [sub_mul, ← hq]
        rfl
    _ = |(roundEven (q / 2 ^ lastPlace q) : ℚ) - q / 2 ^ lastPlace q| * 2 ^ lastPlace q := by
        rw [abs_mul, abs_of_pos hpos]
    _ ≤ 1 / 2 * 2 ^ lastPlace q := mul_le_mul_of_nonneg_right hround hpos.le
    _ = 2 ^ lastPlace q / 2 := by ring

/-- A whole number whose last place is a unit or less is hit from less than half a place away. -/
theorem roundMagnitude_eq_of_near {q : ℚ} {n : ℕ} (hplace : lastPlace q ≤ 0)
    (h : |q - n| < 2 ^ lastPlace q / 2) : roundMagnitude q = n := by
  have hpos := zpow_two_pos (lastPlace q)
  obtain ⟨k, hk⟩ := Int.exists_eq_neg_ofNat hplace
  have hn : (n : ℚ) / 2 ^ lastPlace q = ((n * 2 ^ k : ℕ) : ℤ) := by
    rw [hk, zpow_neg, zpow_natCast, div_inv_eq_mul]
    push_cast
    rfl
  have hround : roundEven (q / 2 ^ lastPlace q) = ((n * 2 ^ k : ℕ) : ℤ) := by
    apply roundEven_eq_of_near
    rw [← hn, ← sub_div, abs_div, abs_of_pos hpos, div_lt_iff₀ hpos]
    linarith
  rw [roundMagnitude, hround, ← hn, div_mul_cancel₀ _ hpos.ne']

/-- Below `2^k` the last place is at most `k - 53`. -/
theorem lastPlace_le {q : ℚ} {k : ℤ} (hq : 0 < q) (hk : -1021 ≤ k) (h : q < 2 ^ k) :
    lastPlace q ≤ k - 53 := by
  have hlog : Int.log 2 q < k := (Int.lt_zpow_iff_log_lt one_lt_two hq).mp (by exact_mod_cast h)
  exact max_le (by omega) (by omega)

@[simp] theorem roundMagnitude_zero : roundMagnitude 0 = 0 := by
  have h : roundEven 0 = 0 := roundEven_intCast 0
  rw [roundMagnitude, zero_div, h, Int.cast_zero, zero_mul]

/-- **Small whole numbers are not rounded.** -/
theorem roundMagnitude_natCast {n : ℕ} (h : n < 2 ^ 53) : roundMagnitude n = n := by
  rcases Nat.eq_zero_or_pos n with rfl | hpos
  · simp
  · have hq : (0 : ℚ) < n := by exact_mod_cast hpos
    have hlt : (n : ℚ) < 2 ^ (53 : ℤ) := by exact_mod_cast h
    refine roundMagnitude_eq_of_near ?_ ?_
    · simpa using lastPlace_le hq (by decide) hlt
    · rw [sub_self, abs_zero]
      exact half_pos (zpow_two_pos _)

/-- The error of rounding a number below `2^k`. -/
theorem abs_roundMagnitude_sub_le_of_lt {q : ℚ} {k : ℤ} (hq : 0 ≤ q) (hk : -1021 ≤ k)
    (h : q < 2 ^ k) : |roundMagnitude q - q| ≤ 2 ^ (k - 54) := by
  rcases hq.eq_or_lt with rfl | hpos
  · rw [roundMagnitude_zero, sub_zero, abs_zero]
    exact (zpow_two_pos _).le
  · have hle : (2 : ℚ) ^ lastPlace q ≤ 2 ^ (k - 53) :=
      zpow_le_zpow_right₀ (by norm_num) (lastPlace_le hpos hk h)
    have hhalf : (2 : ℚ) ^ (k - 53) / 2 = 2 ^ (k - 54) := by
      rw [show k - 53 = k - 54 + 1 by ring, zpow_add_one₀ (by norm_num)]
      ring
    have herror := abs_roundMagnitude_sub_le q
    linarith

/-! ## The format -/

/-- The magnitudes of the format: 53 bits, and an exponent within range. -/
def Representable (q : ℚ) : Prop :=
  ∃ (m : ℕ) (e : ℤ), m < 2 ^ 53 ∧ -1074 ≤ e ∧ e ≤ 971 ∧ q = m * 2 ^ e

/-- A rounded magnitude that does not overflow is one of the format's. -/
theorem representable_roundMagnitude {q : ℚ} (hq : 0 ≤ q) (h : roundMagnitude q < 2 ^ 1024) :
    Representable (roundMagnitude q) := by
  rcases hq.eq_or_lt with rfl | hpos
  · exact ⟨0, 0, by norm_num, by norm_num, by norm_num, by simp⟩
  have hplace := zpow_two_pos (lastPlace q)
  have hge : -1074 ≤ lastPlace q := le_max_right _ _
  -- the integer that is scaled has at most 53 bits, or is `2^53`
  have hscaled : q / 2 ^ lastPlace q < 2 ^ 53 := by
    have hlog : q < 2 ^ (Int.log 2 q + 1) := by
      exact_mod_cast Int.lt_zpow_succ_log_self one_lt_two q
    have hle : Int.log 2 q + 1 ≤ 53 + lastPlace q := by
      have := le_max_left (Int.log 2 q - 52) (-1074)
      unfold lastPlace
      omega
    rw [div_lt_iff₀ hplace]
    calc q < 2 ^ (Int.log 2 q + 1) := hlog
      _ ≤ 2 ^ (53 + lastPlace q) := zpow_le_zpow_right₀ (by norm_num) hle
      _ = 2 ^ 53 * 2 ^ lastPlace q := by
        rw [zpow_add₀ (by norm_num)]
        norm_num
  have hfloor : ⌊q / 2 ^ lastPlace q⌋ < 2 ^ 53 := by
    rw [Int.floor_lt]
    exact_mod_cast hscaled
  have hfloor0 : 0 ≤ ⌊q / 2 ^ lastPlace q⌋ := Int.floor_nonneg.mpr (div_nonneg hq hplace.le)
  obtain ⟨m, hm⟩ : ∃ m : ℕ, roundEven (q / 2 ^ lastPlace q) = m := by
    apply Int.eq_ofNat_of_zero_le
    rcases roundEven_cases (q / 2 ^ lastPlace q) with ⟨hr, -⟩ | ⟨hr, -⟩ <;> omega
  have hm53 : m ≤ 2 ^ 53 := by
    have : (m : ℤ) ≤ 2 ^ 53 := by
      rcases roundEven_cases (q / 2 ^ lastPlace q) with ⟨hr, -⟩ | ⟨hr, -⟩ <;> omega
    exact_mod_cast this
  have hvalue : roundMagnitude q = m * 2 ^ lastPlace q := by
    rw [roundMagnitude, hm, Int.cast_natCast]
  have hsmall : ∀ k : ℕ, 2 ^ k ≤ m → k + lastPlace q < 1024 := by
    intro k hk
    have hpow : (2 : ℚ) ^ (k + lastPlace q) < 2 ^ (1024 : ℤ) := by
      calc (2 : ℚ) ^ (k + lastPlace q) = 2 ^ k * 2 ^ lastPlace q := by
            rw [zpow_add₀ (by norm_num), zpow_natCast]
        _ ≤ m * 2 ^ lastPlace q :=
            mul_le_mul_of_nonneg_right (by exact_mod_cast hk) hplace.le
        _ < 2 ^ (1024 : ℤ) := hvalue ▸ h
    exact (zpow_lt_zpow_iff_right₀ (by norm_num)).mp hpow
  have hle : lastPlace q ≤ 971 := by
    by_contra hbig
    -- that far up the first of the 53 bits is set
    have hlog : lastPlace q = Int.log 2 q - 52 := by
      unfold lastPlace at hbig ⊢
      omega
    have hm52 : 2 ^ 52 ≤ m := by
      have hself : (2 : ℚ) ^ Int.log 2 q ≤ q := by
        exact_mod_cast Int.zpow_log_le_self one_lt_two hpos
      have hdiv : ((2 ^ 52 : ℤ) : ℚ) ≤ q / 2 ^ lastPlace q := by
        rw [le_div_iff₀ hplace]
        calc ((2 ^ 52 : ℤ) : ℚ) * 2 ^ lastPlace q = 2 ^ (52 + lastPlace q) := by
              rw [zpow_add₀ (by norm_num)]
              norm_num
          _ = 2 ^ Int.log 2 q := by rw [hlog, add_sub_cancel]
          _ ≤ q := hself
      have hfl := Int.le_floor.mpr hdiv
      have : (2 ^ 52 : ℤ) ≤ m := by
        rcases roundEven_cases (q / 2 ^ lastPlace q) with ⟨hr, -⟩ | ⟨hr, -⟩ <;> omega
      exact_mod_cast this
    have := hsmall 52 hm52
    omega
  rcases Nat.lt_or_eq_of_le hm53 with hlt | heq
  · exact ⟨m, lastPlace q, hlt, hge, hle, hvalue⟩
  · -- a carry out of the 53 bits is the next power of two
    have hle' : lastPlace q ≤ 970 := by
      by_contra hbig
      have := hsmall 53 heq.ge
      omega
    refine ⟨2 ^ 52, lastPlace q + 1, by norm_num, by omega, by omega, ?_⟩
    rw [hvalue, heq, zpow_add_one₀ (by norm_num)]
    push_cast
    ring

/-- The magnitude of a finite number. -/
structure Magnitude where
  q : ℚ
  representable : Representable q

theorem Representable.nonneg {q : ℚ} (h : Representable q) : 0 ≤ q := by
  obtain ⟨m, e, -, -, -, rfl⟩ := h
  exact mul_nonneg (Nat.cast_nonneg m) (zpow_two_pos e).le

/-- A `double`. The two zeros are different numbers with the same value; one NaN is as good as
    another. -/
inductive Binary64 where
  | finite (negative : Bool) (magnitude : Magnitude)
  | infinite (negative : Bool)
  | nan

namespace Binary64

def isFinite : Binary64 → Bool
  | finite _ _ => true
  | _ => false

/-- The number a finite one is. -/
def value : Binary64 → ℚ
  | finite true m => -m.q
  | finite false m => m.q
  | _ => 0

/-- The exact result with the sign and the magnitude `q`, rounded; too big a one is infinite. -/
def round (negative : Bool) (q : ℚ) (hq : 0 ≤ q) : Binary64 :=
  if h : roundMagnitude q < 2 ^ 1024 then
    finite negative ⟨roundMagnitude q, representable_roundMagnitude hq h⟩
  else infinite negative

/-- An exact number, rounded. -/
def ofRat (q : ℚ) : Binary64 := round (decide (q < 0)) |q| (abs_nonneg q)

def isNegative : Binary64 → Bool
  | finite negative _ => negative
  | infinite negative => negative
  | nan => false

def neg : Binary64 → Binary64
  | finite negative m => finite (!negative) m
  | infinite negative => infinite (!negative)
  | nan => nan

/-- A sum that is exactly zero is `-0` only if both are. -/
def add : Binary64 → Binary64 → Binary64
  | nan, _ => nan
  | _, nan => nan
  | infinite a, infinite b => if a = b then infinite a else nan
  | infinite a, finite _ _ => infinite a
  | finite _ _, infinite b => infinite b
  | finite a m, finite b n =>
    let s := (finite a m).value + (finite b n).value
    if s = 0 then round (a && b) 0 le_rfl else ofRat s

def sub (x y : Binary64) : Binary64 := add x (neg y)

def mul : Binary64 → Binary64 → Binary64
  | nan, _ => nan
  | _, nan => nan
  | infinite a, infinite b => infinite (a != b)
  | infinite a, finite b n => if n.q = 0 then nan else infinite (a != b)
  | finite a m, infinite b => if m.q = 0 then nan else infinite (a != b)
  | finite a m, finite b n =>
    round (a != b) (m.q * n.q) (mul_nonneg m.representable.nonneg n.representable.nonneg)

def lt : Binary64 → Binary64 → Bool
  | nan, _ => false
  | _, nan => false
  | infinite a, infinite b => a && !b
  | infinite a, finite _ _ => a
  | finite _ _, infinite b => !b
  | finite a m, finite b n => decide ((finite a m).value < (finite b n).value)

def le : Binary64 → Binary64 → Bool
  | nan, _ => false
  | _, nan => false
  | infinite a, infinite b => a || !b
  | infinite a, finite _ _ => a
  | finite _ _, infinite b => !b
  | finite a m, finite b n => decide ((finite a m).value ≤ (finite b n).value)

/-- `%.4f`. -/
def fmtF4 : Binary64 → Bytes
  | finite negative m => (if negative then ascii "-" else []) ++ fmtF4Rat m.q
  | infinite negative => (if negative then ascii "-" else []) ++ ascii "inf"
  | nan => ascii "nan"

theorem zero_not_mem_sign (negative : Bool) :
    (0 : UInt8) ∉ (if negative then ascii "-" else []) := by
  cases negative <;> decide

theorem zero_not_mem_fmtF4 (x : Binary64) : (0 : UInt8) ∉ x.fmtF4 := by
  cases x with
  | finite negative m =>
    simp only [fmtF4, List.mem_append, not_or]
    exact ⟨zero_not_mem_sign negative, zero_not_mem_fmtF4Rat m.q⟩
  | infinite negative =>
    simp only [fmtF4, List.mem_append, not_or]
    exact ⟨zero_not_mem_sign negative, by decide⟩
  | nan => exact (by decide)

instance : CDouble Binary64 where
  lt := lt
  le := le
  sub := sub
  neg := neg
  lit := ofRat
  fmtF4 := fmtF4
  fmtF4_noNul := zero_not_mem_fmtF4

instance : CDoubleArith Binary64 where
  add := add
  mul := mul
  ofUnsigned n := ofRat n

instance : CDoublePrint Binary64 where
  finite := isFinite
  fmtF4_finite x hx := by
    cases x with
    | finite negative m =>
      obtain ⟨hlen, hdigits⟩ := fraction_digits (Nat.mod_lt (tenThousandths m.q) (by decide))
      refine ⟨negative, tenThousandths m.q / 10000, _, hlen, hdigits, ?_⟩
      have hpos : ¬ m.q < 0 := not_lt.mpr m.representable.nonneg
      change (if negative then ascii "-" else []) ++ fmtF4Rat m.q = _
      rw [fmtF4Rat, if_neg hpos]
      simp only [List.nil_append, List.append_assoc]
    | infinite negative => cases hx
    | nan => cases hx
  fmtF4_other x hx := by
    cases x with
    | finite negative m => cases hx
    | infinite negative => exact ⟨negative, .inl rfl⟩
    | nan => exact ⟨false, .inr rfl⟩

/-! ## What an operation returns -/

@[simp] theorem value_neg (x : Binary64) : (neg x).value = -x.value := by
  cases x with
  | finite negative m => cases negative <;> simp [neg, value]
  | infinite negative => simp [neg, value]
  | nan => simp [neg, value]

@[simp] theorem isFinite_neg (x : Binary64) : (neg x).isFinite = x.isFinite := by
  cases x <;> rfl

theorem lt_eq {x y : Binary64} (hx : x.isFinite = true) (hy : y.isFinite = true) :
    CDouble.lt x y = decide (x.value < y.value) := by
  cases x with
  | finite a m =>
    cases y with
    | finite b n => rfl
    | infinite b => cases hy
    | nan => cases hy
  | infinite a => cases hx
  | nan => cases hx

theorem le_eq {x y : Binary64} (hx : x.isFinite = true) (hy : y.isFinite = true) :
    CDouble.le x y = decide (x.value ≤ y.value) := by
  cases x with
  | finite a m =>
    cases y with
    | finite b n => rfl
    | infinite b => cases hy
    | nan => cases hy
  | infinite a => cases hx
  | nan => cases hx

/-- The result of an operation, seen from its exact value: not more than a rounding away, and
    with the same sign where that is not zero. A whole result is exact. -/
structure Rounds (ε : ℚ) (x : Binary64) (q : ℚ) : Prop where
  finite : x.isFinite = true
  near : |x.value - q| ≤ ε
  sign : q ≠ 0 → x.isNegative = decide (q < 0)
  whole : ∀ n : ℤ, q = n → x.value = q

/-- The sign of a number, as a factor. -/
def signFactor (negative : Bool) : ℚ := if negative then -1 else 1

theorem value_finite (negative : Bool) (m : Magnitude) :
    (finite negative m).value = signFactor negative * m.q := by
  cases negative <;> simp [value, signFactor]

theorem signFactor_mul_abs (q : ℚ) : signFactor (decide (q < 0)) * |q| = q := by
  unfold signFactor
  by_cases h : q < 0
  · rw [decide_eq_true h, if_pos rfl, abs_of_neg h, neg_one_mul, neg_neg]
  · rw [decide_eq_false h, if_neg Bool.false_ne_true, abs_of_nonneg (not_lt.mp h), one_mul]

theorem abs_signFactor_mul (negative : Bool) (q : ℚ) : |signFactor negative * q| = |q| := by
  cases negative <;> simp [signFactor]

theorem isNegative_round (negative : Bool) {q : ℚ} (hq : 0 ≤ q) :
    (round negative q hq).isNegative = negative := by
  unfold round
  split_ifs <;> rfl

/-- **Rounding, for numbers of a moderate size.** -/
theorem rounds_round (negative : Bool) {q : ℚ} (hq : 0 ≤ q) (h : q < 2 ^ 17) :
    Rounds (2 ^ (-37 : ℤ)) (round negative q hq) (signFactor negative * q) := by
  have herror := abs_roundMagnitude_sub_le_of_lt (k := 17) hq (by norm_num) (by exact_mod_cast h)
  rw [show (17 : ℤ) - 54 = -37 by norm_num] at herror
  have hlt : roundMagnitude q < 2 ^ 1024 := by
    have hsmall : (2 : ℚ) ^ (-37 : ℤ) ≤ 1 := by norm_num
    have hle := (abs_le.mp herror).2
    have h18 : roundMagnitude q < 2 ^ 18 := by linarith
    exact h18.trans (pow_lt_pow_right₀ (by norm_num) (by norm_num))
  unfold round
  rw [dif_pos hlt]
  refine ⟨rfl, ?_, ?_, ?_⟩
  · rw [value_finite, ← mul_sub, abs_signFactor_mul]
    exact herror
  · intro hne
    have hpos : 0 < q := lt_of_le_of_ne hq fun h0 => hne (by rw [← h0, mul_zero])
    cases negative <;> simp [isNegative, signFactor, hpos, hpos.le]
  · intro n hn
    have hnat : q = n.natAbs := by
      rw [← abs_of_nonneg hq, ← abs_signFactor_mul negative, hn, ← Int.cast_abs, Nat.cast_natAbs]
    have hn53 : n.natAbs < 2 ^ 53 := by
      have : (n.natAbs : ℚ) < 2 ^ 53 := by
        rw [← hnat]
        exact h.trans (by norm_num)
      exact_mod_cast this
    have hexact : roundMagnitude q = q := by rw [hnat, roundMagnitude_natCast hn53]
    rw [value_finite]
    exact congrArg (signFactor negative * ·) hexact

theorem rounds_ofRat {q : ℚ} (h : |q| < 2 ^ 17) : Rounds (2 ^ (-37 : ℤ)) (ofRat q) q := by
  have := rounds_round (decide (q < 0)) (abs_nonneg q) h
  rwa [signFactor_mul_abs] at this

theorem value_mul_value (a b : Bool) (m n : Magnitude) :
    (finite a m).value * (finite b n).value = signFactor (a != b) * (m.q * n.q) := by
  cases a <;> cases b <;> simp [value, signFactor]

theorem rounds_mul {x y : Binary64} (hx : x.isFinite = true) (hy : y.isFinite = true)
    (h : |x.value * y.value| < 2 ^ 17) :
    Rounds (2 ^ (-37 : ℤ)) (mul x y) (x.value * y.value) := by
  cases x with
  | finite a m =>
    cases y with
    | finite b n =>
      rw [value_mul_value] at h ⊢
      have hnonneg := mul_nonneg m.representable.nonneg n.representable.nonneg
      rw [abs_signFactor_mul, abs_of_nonneg hnonneg] at h
      exact rounds_round (a != b) hnonneg h
    | infinite b => cases hy
    | nan => cases hy
  | infinite a => cases hx
  | nan => cases hx

theorem rounds_add {x y : Binary64} (hx : x.isFinite = true) (hy : y.isFinite = true)
    (h : |x.value + y.value| < 2 ^ 17) :
    Rounds (2 ^ (-37 : ℤ)) (add x y) (x.value + y.value) := by
  cases x with
  | finite a m =>
    cases y with
    | finite b n =>
      unfold add
      dsimp only
      by_cases hzero : (finite a m).value + (finite b n).value = 0
      · rw [if_pos hzero, hzero]
        simpa using rounds_round (a && b) le_rfl (by norm_num)
      · rw [if_neg hzero]
        exact rounds_ofRat h
    | infinite b => cases hy
    | nan => cases hy
  | infinite a => cases hx
  | nan => cases hx

/-! ## Numbers with one decimal place -/

/-- `x` stands for `q`, a number with one decimal place: it is finite, within `ε`, and exact where
    `q` is whole. -/
structure Near (ε : ℚ) (x : Binary64) (q : ℚ) : Prop where
  finite : x.isFinite = true
  near : |x.value - q| ≤ ε
  whole : ∀ n : ℤ, q = n → x.value = q
  tenths : ∃ k : ℤ, q = k / 10

/-- With the sign, which the number alone does not have where it is zero. -/
structure Close (ε : ℚ) (x : Binary64) (q : ℚ) : Prop extends Near ε x q where
  sign : x.isNegative = decide (q < 0)

theorem tenths_intCast (n : ℤ) : ∃ k : ℤ, (n : ℚ) = k / 10 :=
  ⟨10 * n, by push_cast; ring⟩

theorem Near.neg {ε : ℚ} {x : Binary64} {q : ℚ} (h : Near ε x q) : Near ε (neg x) (-q) where
  finite := by rw [isFinite_neg, h.finite]
  near := by
    rw [value_neg, ← neg_sub', abs_neg]
    simpa using h.near
  whole := by
    intro n hn
    rw [value_neg, h.whole (-n) (by push_cast; linarith)]
  tenths := by
    obtain ⟨k, hk⟩ := h.tenths
    exact ⟨-k, by rw [hk]; push_cast; ring⟩

/-- A whole number is itself. -/
theorem close_natCast {n : ℕ} (h : n < 2 ^ 17) : Close 0 (ofRat n) n := by
  have hround := rounds_ofRat (q := n) (by
    rw [abs_of_nonneg (Nat.cast_nonneg n)]
    exact_mod_cast h)
  have hvalue := hround.whole n (by push_cast; rfl)
  refine ⟨⟨hround.finite, ?_, fun _ _ => hvalue, tenths_intCast n⟩, isNegative_round _ _⟩
  rw [hvalue, sub_self, abs_zero]

/-- Below a tenth, the error leaves a number on its side of every whole one. -/
theorem Near.compare {ε : ℚ} {x : Binary64} {q : ℚ} (h : Near ε x q) (hε : ε < 1 / 10) (n : ℤ) :
    (x.value < n ↔ q < n) ∧ (x.value ≤ n ↔ q ≤ n) := by
  obtain ⟨hlow, hhigh⟩ := abs_le.mp h.near
  obtain ⟨k, hk⟩ := h.tenths
  rcases lt_trichotomy q n with hlt | heq | hgt
  · have hgap : k + 1 ≤ 10 * n := by
      rw [hk, div_lt_iff₀ (by norm_num)] at hlt
      have : k < n * 10 := by exact_mod_cast hlt
      omega
    have hgap' : (k : ℚ) + 1 ≤ 10 * n := by exact_mod_cast hgap
    have hvalue : x.value < n := by
      rw [hk] at hhigh
      linarith
    exact ⟨iff_of_true hvalue hlt, iff_of_true hvalue.le hlt.le⟩
  · rw [h.whole n heq]
    exact ⟨Iff.rfl, Iff.rfl⟩
  · have hgap : 10 * n + 1 ≤ k := by
      rw [hk, lt_div_iff₀ (by norm_num)] at hgt
      have : n * 10 < k := by exact_mod_cast hgt
      omega
    have hgap' : 10 * (n : ℚ) + 1 ≤ k := by exact_mod_cast hgap
    have hvalue : n < x.value := by
      rw [hk] at hlow
      linarith
    exact ⟨iff_of_false hvalue.not_gt hgt.not_gt, iff_of_false hvalue.not_ge hgt.not_ge⟩

/-- A sum that is not zero, when it is exact where it should be. -/
theorem Near.add {ε δ : ℚ} {x y : Binary64} {p q : ℚ} (hx : Near ε x p) (hy : Near δ y q)
    (hsmall : ε + δ < 1 / 10) (hbound : |p + q| < 2 ^ 16) (hne : p + q ≠ 0)
    (hwhole : ∀ n : ℤ, p + q = n → x.value + y.value = p + q) :
    Close (ε + δ + 2 ^ (-37 : ℤ)) (add x y) (p + q) := by
  obtain ⟨hx1, hx2⟩ := abs_le.mp hx.near
  obtain ⟨hy1, hy2⟩ := abs_le.mp hy.near
  obtain ⟨hb1, hb2⟩ := abs_lt.mp hbound
  obtain ⟨i, hi⟩ := hx.tenths
  obtain ⟨j, hj⟩ := hy.tenths
  have htenths : p + q = ((i + j : ℤ) : ℚ) / 10 := by
    rw [hi, hj]
    push_cast
    ring
  have hround := rounds_add hx.finite hy.finite
    (abs_lt.mpr ⟨by linarith, by linarith⟩)
  obtain ⟨hr1, hr2⟩ := abs_le.mp hround.near
  -- the exact sum of the two has the sign of the sum they stand for
  have hsum : (x.value + y.value ≠ 0) ∧ (x.value + y.value < 0 ↔ p + q < 0) := by
    have hne' : i + j ≠ 0 := fun h0 => hne (by rw [htenths, h0, Int.cast_zero, zero_div])
    rcases lt_or_gt_of_ne hne' with hlt | hgt
    · have : ((i + j : ℤ) : ℚ) ≤ -1 := by exact_mod_cast Int.le_sub_one_of_lt hlt
      have hneg : x.value + y.value < 0 := by linarith
      exact ⟨hneg.ne, iff_of_true hneg (by linarith)⟩
    · have : (1 : ℚ) ≤ ((i + j : ℤ) : ℚ) := by exact_mod_cast hgt
      have hpos : 0 < x.value + y.value := by linarith
      exact ⟨hpos.ne', iff_of_false hpos.not_gt (by linarith)⟩
  refine ⟨⟨hround.finite, abs_le.mpr ⟨by linarith, by linarith⟩, ?_, _, htenths⟩, ?_⟩
  · intro n hn
    have hexact := hwhole n hn
    rw [hround.whole n (hexact.trans hn), hexact]
  · rw [hround.sign hsum.1, decide_eq_decide]
    exact hsum.2

/-- A whole number and one with a decimal place. -/
theorem Near.add_whole {δ : ℚ} {x y : Binary64} {n : ℤ} {q : ℚ} (hx : Near 0 x n)
    (hy : Near δ y q) (hsmall : δ < 1 / 10) (hbound : |n + q| < 2 ^ 16) (hne : n + q ≠ 0) :
    Close (δ + 2 ^ (-37 : ℤ)) (Binary64.add x y) (n + q) := by
  have h := hx.add hy (by linarith) hbound hne (by
    intro k hk
    rw [hx.whole n rfl, hy.whole (k - n) (by push_cast; linarith)])
  rwa [zero_add] at h

/-- The same the other way round. -/
theorem Near.whole_add {δ : ℚ} {x y : Binary64} {n : ℤ} {q : ℚ} (hx : Near δ x q)
    (hy : Near 0 y n) (hsmall : δ < 1 / 10) (hbound : |q + n| < 2 ^ 16) (hne : q + n ≠ 0) :
    Close (δ + 2 ^ (-37 : ℤ)) (Binary64.add x y) (q + n) := by
  have h := hx.add hy (by linarith) hbound hne (by
    intro k hk
    rw [hx.whole (k - n) (by push_cast; linarith), hy.whole n rfl])
  rwa [add_zero] at h

/-! ## Decimal literals

`0.1` and `0.2` are not numbers of the format: what is stored is more by the same factor. A
multiple of one of them comes out whole where it should, since that factor is less than half a
place. -/

theorem log_two_eq {q : ℚ} {k : ℤ} (hlow : 2 ^ k ≤ q) (hhigh : q < 2 ^ (k + 1)) :
    Int.log 2 q = k := by
  have hpos : 0 < q := lt_of_lt_of_le (zpow_two_pos k) hlow
  have hle : k ≤ Int.log 2 q :=
    (Int.zpow_le_iff_le_log one_lt_two hpos).mp (by exact_mod_cast hlow)
  have hlt : Int.log 2 q < k + 1 :=
    (Int.lt_zpow_iff_log_lt one_lt_two hpos).mp (by exact_mod_cast hhigh)
  omega

theorem value_round (negative : Bool) {q : ℚ} (hq : 0 ≤ q)
    (h : (round negative q hq).isFinite = true) :
    (round negative q hq).value = signFactor negative * roundMagnitude q := by
  unfold round at h ⊢
  split_ifs at h ⊢
  · exact value_finite _ _
  · cases h

/-- What is stored for a literal below one: `n` at the place `k - 52`. -/
theorem value_literal {q : ℚ} {k n : ℤ} (hlow : 2 ^ k ≤ q) (hhigh : q < 2 ^ (k + 1))
    (hk : -1022 ≤ k) (hk' : k < 0) (hn : |q / 2 ^ (k - 52) - n| < 1 / 2) :
    (ofRat q).isFinite = true ∧ (ofRat q).isNegative = false ∧
      (ofRat q).value = n * 2 ^ (k - 52) := by
  have hpos : 0 < q := lt_of_lt_of_le (zpow_two_pos k) hlow
  have hone : q < 1 := hhigh.trans_le (zpow_le_one_of_nonpos₀ (by norm_num) (by omega))
  have hround : roundMagnitude q = n * 2 ^ (k - 52) := by
    have hplace : lastPlace q = k - 52 := by
      rw [lastPlace, log_two_eq hlow hhigh]
      omega
    rw [roundMagnitude, hplace, roundEven_eq_of_near hn]
  have hsign : decide (q < 0) = false := decide_eq_false hpos.not_gt
  have hfinite := (rounds_ofRat (q := q) (by rw [abs_of_pos hpos]; linarith)).finite
  refine ⟨hfinite, (isNegative_round _ _).trans hsign, ?_⟩
  rw [ofRat, value_round _ _ hfinite, abs_of_pos hpos, hround, hsign]
  exact one_mul _

/-- What is stored for the `d`-th part of one, when it is more by the factor `1 + 2^(-54)`. -/
structure IsPart (d : ℕ) (c : Binary64) : Prop where
  finite : c.isFinite = true
  sign : c.isNegative = false
  value : c.value = (1 + 2 ^ (-54 : ℤ)) / d
  tenths : d ∣ 10

theorem isPart_tenth : IsPart 10 (ofRat (1 / 10)) := by
  obtain ⟨hfinite, hsign, hvalue⟩ := value_literal (q := 1 / 10) (k := -4) (n := 7205759403792794)
    (by norm_num) (by norm_num) (by norm_num) (by norm_num) (by norm_num [abs_lt])
  exact ⟨hfinite, hsign, hvalue.trans (by norm_num), by norm_num⟩

theorem isPart_fifth : IsPart 5 (ofRat (2 / 10)) := by
  obtain ⟨hfinite, hsign, hvalue⟩ := value_literal (q := 2 / 10) (k := -3) (n := 7205759403792794)
    (by norm_num) (by norm_num) (by norm_num) (by norm_num) (by norm_num [abs_lt])
  exact ⟨hfinite, hsign, hvalue.trans (by norm_num), by norm_num⟩

theorem exists_magnitude {x : Binary64} (h : x.isFinite = true) (hs : x.isNegative = false) :
    ∃ m : Magnitude, x = .finite false m ∧ m.q = x.value := by
  cases x with
  | finite negative m =>
    cases hs
    exact ⟨m, rfl, rfl⟩
  | infinite negative => cases h
  | nan => cases h

/-- The factor is less than half a place of any number. -/
theorem roundMagnitude_excess {n : ℕ} (hn : n < 2 ^ 16) :
    roundMagnitude (n * (1 + 2 ^ (-54 : ℤ))) = n := by
  rcases Nat.eq_zero_or_pos n with rfl | hpos
  · simp
  have hnq : (0 : ℚ) < n := by exact_mod_cast hpos
  have hn16 : (n : ℚ) < 65536 := by exact_mod_cast hn
  obtain ⟨p, hp⟩ : ∃ p : ℚ, p = n * (1 + 2 ^ (-54 : ℤ)) := ⟨_, rfl⟩
  have hdiff : p - n = n / 18014398509481984 := by
    rw [hp]
    norm_num
    ring
  have hexcess : (n : ℚ) < p := by
    have : (0 : ℚ) < n / 18014398509481984 := div_pos hnq (by norm_num)
    linarith
  rw [← hp]
  refine roundMagnitude_eq_of_near ?_ ?_
  · have hlt : p < 2 ^ (17 : ℤ) := by
      norm_num
      linarith
    have := lastPlace_le (hnq.trans hexcess) (by norm_num) hlt
    omega
  · have hlog : p < 2 ^ (Int.log 2 p + 1) := by
      exact_mod_cast Int.lt_zpow_succ_log_self one_lt_two p
    have hplace : (2 : ℚ) ^ (Int.log 2 p - 52) ≤ 2 ^ lastPlace p :=
      zpow_le_zpow_right₀ (by norm_num) (le_max_left _ _)
    have hsplit : (2 : ℚ) ^ (Int.log 2 p + 1) = 2 ^ (Int.log 2 p - 52) * 2 ^ (53 : ℤ) := by
      rw [← zpow_add₀ (by norm_num)]
      congr 1
      ring
    norm_num at hsplit
    rw [abs_of_pos (by linarith)]
    linarith

/-- **A multiple of `0.1` or `0.2`** is close to what it stands for, and exact where that is
    whole. -/
theorem IsPart.close_mul {d : ℕ} {c : Binary64} (hc : IsPart d c) {n : ℕ} (hn : n < 2 ^ 16) :
    Close (2 ^ (-36 : ℤ)) (mul (ofRat n) c) (n / d) := by
  have hn' := close_natCast (n := n) (by omega)
  have hd : 0 < d := Nat.pos_of_dvd_of_pos hc.tenths (by norm_num)
  have hd1 : (1 : ℚ) ≤ d := by exact_mod_cast hd
  have hnq : (n : ℚ) < 2 ^ 16 := by exact_mod_cast hn
  have hquot0 : 0 ≤ (n : ℚ) / d := div_nonneg (Nat.cast_nonneg n) (by linarith)
  have hquot : (n : ℚ) / d < 2 ^ 16 := (div_le_self (Nat.cast_nonneg n) hd1).trans_lt hnq
  have hproduct : (ofRat n).value * c.value = n / d * (1 + 2 ^ (-54 : ℤ)) := by
    rw [hn'.whole n (by push_cast; rfl), hc.value]
    ring
  have hround := rounds_mul hn'.finite hc.finite (by
    rw [hproduct, abs_of_nonneg (mul_nonneg hquot0 (by norm_num))]
    norm_num at hquot ⊢
    linarith)
  rw [hproduct] at hround
  obtain ⟨m₁, hx, hm₁⟩ := exists_magnitude hn'.finite
    (hn'.sign.trans (decide_eq_false (Nat.cast_nonneg n).not_gt))
  obtain ⟨m₂, hy, hm₂⟩ := exists_magnitude hc.finite hc.sign
  have hmul : mul (ofRat n) c = round false (m₁.q * m₂.q)
      (mul_nonneg m₁.representable.nonneg m₂.representable.nonneg) := by
    rw [hx, hy]
    rfl
  refine ⟨⟨hround.finite, ?_, ?_, ?_⟩, ?_⟩
  · obtain ⟨h1, h2⟩ := abs_le.mp hround.near
    rw [abs_le]
    norm_num at h1 h2 hquot ⊢
    constructor <;> linarith
  · intro k hk
    obtain ⟨K, rfl⟩ := Int.eq_ofNat_of_zero_le (a := k) (by
      have : (0 : ℚ) ≤ k := hk ▸ hquot0
      exact_mod_cast this)
    have hK : K < 2 ^ 16 := by
      have : (K : ℚ) < 2 ^ 16 := by
        rw [hk] at hquot
        exact_mod_cast hquot
      exact_mod_cast this
    rw [hmul] at hround ⊢
    rw [value_round _ _ hround.finite, hm₁, hm₂, hproduct, hk]
    push_cast
    rw [roundMagnitude_excess hK]
    exact one_mul _
  · obtain ⟨j, hj⟩ := hc.tenths
    refine ⟨n * j, ?_⟩
    have hjq : (10 : ℚ) = d * j := by exact_mod_cast hj
    push_cast
    rw [hjq]
    have hd0 : (d : ℚ) ≠ 0 := by linarith
    have hj0 : (j : ℚ) ≠ 0 := by
      intro h0
      rw [h0, mul_zero] at hjq
      norm_num at hjq
    field_simp
  · rw [hmul, isNegative_round, decide_eq_false hquot0.not_gt]

/-! ## Printing -/

theorem tenThousandths_eq_of_near {q : ℚ} {n : ℕ} (h : |(|q| * 10000) - n| < 1 / 2) :
    tenThousandths q = n := by
  have hden : (0 : ℚ) < q.den := by exact_mod_cast q.den_pos
  have habs : |q| = q.num.natAbs / q.den := by
    rw [Rat.abs_def, Rat.divInt_eq_div, Int.cast_natCast, Int.cast_natCast]
  obtain ⟨m, hm⟩ : ∃ m, m = q.num.natAbs * 10000 := ⟨_, rfl⟩
  have hmul : |q| * 10000 * q.den = m := by
    rw [habs, hm]
    field_simp
    push_cast
    ring
  obtain ⟨hlow, hhigh⟩ := abs_lt.mp h
  have h1 : 2 * m < (2 * n + 1) * q.den := by
    have : 2 * (m : ℚ) < (2 * n + 1) * q.den := by
      rw [← hmul]
      nlinarith
    exact_mod_cast this
  have h2 : 2 * n * q.den < 2 * m + q.den := by
    have : 2 * (n : ℚ) * q.den < 2 * m + q.den := by
      rw [← hmul]
      nlinarith
    exact_mod_cast this
  -- with a remainder, the quotient is `n` or the number before it
  have hdiv := Nat.div_add_mod m q.den
  have hmod := Nat.mod_lt m q.den_pos
  unfold tenThousandths
  dsimp only
  rw [← hm]
  generalize m / q.den = k at hdiv ⊢
  generalize m % q.den = r at hdiv hmod ⊢
  have hk : k ≤ n := by nlinarith
  have hk' : n ≤ k + 1 := by nlinarith
  rcases Nat.lt_or_eq_of_le hk with hlt | rfl
  · obtain rfl : n = k + 1 := by omega
    rw [if_pos (Or.inl (by nlinarith))]
  · rw [if_neg]
    have : 2 * r < q.den := by nlinarith
    omega

/-- **A number with one decimal place is printed as what it stands for.** -/
theorem Close.fmtF4 {ε : ℚ} {x : Binary64} {q : ℚ} (h : Close ε x q) (hε : ε < 1 / 20000) :
    CDouble.fmtF4 x = fmtF4Rat q := by
  cases x with
  | finite negative m =>
    have hsign : negative = decide (q < 0) := h.sign
    have hm := m.representable.nonneg
    obtain ⟨k, hk⟩ := h.tenths
    have hnear : |m.q - (|q|)| < 1 / 20000 := by
      have habs := abs_abs_sub_abs_le (value (.finite negative m)) q
      rw [value_finite, abs_signFactor_mul, abs_of_nonneg hm, ← value_finite] at habs
      exact (habs.trans h.near).trans_lt hε
    have hq : |q| * 10000 = (k.natAbs * 1000 : ℕ) := by
      rw [hk, abs_div, ← Int.cast_abs, Int.abs_eq_natAbs]
      push_cast
      norm_num
      ring
    have hdigits : tenThousandths m.q = k.natAbs * 1000 := by
      apply tenThousandths_eq_of_near
      rw [abs_of_nonneg hm, ← hq, ← sub_mul, abs_mul]
      norm_num
      linarith
    have hdigits' : tenThousandths q = k.natAbs * 1000 := by
      apply tenThousandths_eq_of_near
      rw [hq, sub_self, abs_zero]
      norm_num
    change (if negative then ascii "-" else []) ++ fmtF4Rat m.q = fmtF4Rat q
    unfold fmtF4Rat
    rw [if_neg hm.not_gt, hdigits, hdigits', hsign]
    simp only [decide_eq_true_eq, List.nil_append, List.append_assoc]
  | infinite negative => cases h.finite
  | nan => cases h.finite

end Binary64
end Lib
end EdgeFlow
