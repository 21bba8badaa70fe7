import Mathlib.Algebra.Order.Ring.Rat
import EdgeFlow.Lib.CText

/-!
# `CDouble` — the arithmetic a program does on a `double`

A control program does very little with its `double`s: it compares two of them, subtracts,
negates, writes decimal literals, and prints with `%.4f`. `CDouble V` is that interface and
nothing more, so a model over `V` says the same thing about every number format, the
machine's included, wherever a result does not depend on arithmetic laws; a result that does
(a clamp is a minimum) is stated at `ℚ`, the exact numbers.

The one law is that a printed number has no NUL byte, which is what makes a text built from
it a C string.
-/

set_option autoImplicit false

namespace EdgeFlow
namespace Lib

class CDouble (V : Type) where
  /-- `a < b` -/
  lt : V → V → Bool
  /-- `a <= b` -/
  le : V → V → Bool
  sub : V → V → V
  neg : V → V
  /-- A decimal literal of the source. -/
  lit : ℚ → V
  /-- `%.4f` -/
  fmtF4 : V → Bytes
  fmtF4_noNul : ∀ v, (0 : UInt8) ∉ fmtF4 v

/-- A number format with a notion of a finite number, and what `%.4f` prints of it: a sign, an
    integer, a point and four digits, or one of the words `inf` and `nan`. -/
class CDoublePrint (V : Type) extends CDouble V where
  finite : V → Bool
  fmtF4_finite : ∀ v, finite v = true → ∃ (neg : Bool) (k : Nat) (frac : Bytes),
    frac.length = 4 ∧ (∀ b ∈ frac, 0x30 ≤ b ∧ b ≤ 0x39) ∧
      fmtF4 v = (if neg then ascii "-" else []) ++ dec k ++ ascii "." ++ frac
  fmtF4_other : ∀ v, finite v = false → ∃ neg : Bool,
    fmtF4 v = (if neg then ascii "-" else []) ++ ascii "inf" ∨
      fmtF4 v = (if neg then ascii "-" else []) ++ ascii "nan"

/-- A number format with the integer part of its numbers; an infinity and a NaN have none. -/
class CDoubleInt (V : Type) where
  trunc : V → Option Int

/-- A number format with sums, products and the conversion of an unsigned number. -/
class CDoubleArith (V : Type) extends CDouble V where
  add : V → V → V
  mul : V → V → V
  ofUnsigned : Nat → V

/-- `(uintN_t)v` with `N = bits`: the integer part if the type can represent it, and otherwise,
    C leaving it undefined, what the machine makes of it. -/
def toUnsigned {V : Type} [CDoubleInt V] (undef : Nat → V → Nat) (bits : Nat) (v : V) : Nat :=
  match CDoubleInt.trunc v with
  | some n => if 0 ≤ n ∧ n < 2 ^ bits then n.toNat else undef bits v
  | none => undef bits v

theorem zero_not_mem_dec (n : Nat) : (0 : UInt8) ∉ dec n :=
  fun h => absurd (mem_dec h).1 (by decide)

/-! ## The exact numbers -/

/-- `|q|` in ten-thousandths, rounded to nearest and ties to even, as `printf` rounds. -/
def tenThousandths (q : ℚ) : Nat :=
  let m := q.num.natAbs * 10000
  let k := m / q.den
  let r := m % q.den
  if q.den < 2 * r ∨ (2 * r = q.den ∧ k % 2 = 1) then k + 1 else k

/-- `%.4f` of an exact number: sign, integer part, point, four digits. -/
def fmtF4Rat (q : ℚ) : Bytes :=
  let t := tenThousandths q
  let frac := dec (t % 10000)
  (if q < 0 then ascii "-" else []) ++ dec (t / 10000) ++ ascii "." ++
    (List.replicate (4 - frac.length) 48 ++ frac)

theorem zero_not_mem_fmtF4Rat (q : ℚ) : (0 : UInt8) ∉ fmtF4Rat q := by
  unfold fmtF4Rat
  simp only [List.mem_append, not_or]
  refine ⟨⟨⟨?_, zero_not_mem_dec _⟩, by decide⟩, ?_, zero_not_mem_dec _⟩
  · split <;> decide
  · rw [List.mem_replicate]
    rintro ⟨_, h⟩
    exact absurd h (by decide)

instance : CDouble ℚ where
  lt a b := decide (a < b)
  le a b := decide (a ≤ b)
  sub a b := a - b
  neg a := -a
  lit q := q
  fmtF4 := fmtF4Rat
  fmtF4_noNul := zero_not_mem_fmtF4Rat

/-- The four digits behind the point. -/
theorem fraction_digits {r : Nat} (hr : r < 10000) :
    (List.replicate (4 - (dec r).length) (48 : UInt8) ++ dec r).length = 4 ∧
      ∀ b ∈ List.replicate (4 - (dec r).length) (48 : UInt8) ++ dec r, 0x30 ≤ b ∧ b ≤ 0x39 := by
  constructor
  · have hlen := length_dec_le (by decide : 0 < 4) hr
    rw [List.length_append, List.length_replicate]
    omega
  · intro b hb
    rcases List.mem_append.mp hb with hb | hb
    · rw [(List.mem_replicate.mp hb).2]
      decide
    · exact mem_dec hb

instance : CDoublePrint ℚ where
  finite _ := true
  fmtF4_finite q _ := by
    obtain ⟨hlen, hdigits⟩ := fraction_digits (Nat.mod_lt (tenThousandths q) (by decide))
    refine ⟨decide (q < 0), tenThousandths q / 10000, _, hlen, hdigits, ?_⟩
    simp only [decide_eq_true_eq]
    rfl
  fmtF4_other _ h := by cases h

instance : CDoubleInt ℚ where
  trunc q := some (q.num.tdiv q.den)

instance : CDoubleArith ℚ where
  add a b := a + b
  mul a b := a * b
  ofUnsigned n := n

namespace CDouble

@[simp] theorem lt_rat (a b : ℚ) : lt a b = decide (a < b) := rfl
@[simp] theorem le_rat (a b : ℚ) : le a b = decide (a ≤ b) := rfl
@[simp] theorem sub_rat (a b : ℚ) : sub a b = a - b := rfl
@[simp] theorem neg_rat (a : ℚ) : neg a = -a := rfl
@[simp] theorem lit_rat (q : ℚ) : (lit q : ℚ) = q := rfl

end CDouble

example : fmtF4Rat 150 = ascii "150.0000" := by decide

end Lib
end EdgeFlow
