import Mathlib.Algebra.GroupWithZero.Nat
import Mathlib.Data.List.TakeWhile

/-!
# C text — byte strings, bounded buffers, and what `snprintf` leaves in them

A C string is the run of bytes before the first NUL, so every text here is a
`List UInt8` and not a Lean `String`: the code this library serves compares, copies and
concatenates bytes, and never looks at them as characters.

A `char field[n]` is a `CStr n`. The two facts every reader of such a field relies on
— there is no NUL inside, and there is room for the terminator — are fields of the
structure, so a text that does not fit cannot be built, and the capacity arithmetic of a
caller starts from `CStr.fits` rather than from a hypothesis.
-/

set_option autoImplicit false

namespace EdgeFlow
namespace Lib

abbrev Bytes := List UInt8

/-- The bytes of an ASCII literal of the source. -/
def ascii (s : String) : Bytes := s.toList.map fun c => UInt8.ofNat c.toNat

/-- `%llu`: the decimal digits, no sign and no padding. -/
def dec (n : Nat) : Bytes := (Nat.toDigits 10 n).map fun c => UInt8.ofNat c.toNat

theorem ofNat_toNat_of_isDigit {c : Char} (h : c.isDigit = true) :
    0x30 ≤ UInt8.ofNat c.toNat ∧ UInt8.ofNat c.toNat ≤ 0x39 := by
  have hr : 48 ≤ c.toNat ∧ c.toNat ≤ 57 := by
    simp only [Char.isDigit, Bool.and_eq_true, decide_eq_true_eq] at h
    exact ⟨UInt32.le_iff_toNat_le.mp h.1, UInt32.le_iff_toNat_le.mp h.2⟩
  rw [UInt8.le_iff_toNat_le, UInt8.le_iff_toNat_le, UInt8.toNat_ofNat']
  simp only [UInt8.toNat_ofNat]
  omega

theorem mem_dec {n : Nat} {b : UInt8} (h : b ∈ dec n) : 0x30 ≤ b ∧ b ≤ 0x39 := by
  obtain ⟨c, hc, rfl⟩ := List.mem_map.mp h
  exact ofNat_toNat_of_isDigit (Nat.isDigit_of_mem_toDigits (by omega) (by omega) hc)

theorem length_dec_le {n k : Nat} (hk : 0 < k) (h : n < 10 ^ k) : (dec n).length ≤ k := by
  rw [dec, List.length_map]
  exact (Nat.length_toDigits_le_iff (by decide) hk).mpr h

/-- What `snprintf(buf, n, …)` leaves in `buf` when the full text is `text`: as much of it
    as leaves room for the terminator. -/
def snprintf (n : Nat) (text : Bytes) : Bytes := text.take (n - 1)

theorem length_snprintf_le (n : Nat) (text : Bytes) : (snprintf n text).length ≤ n - 1 := by
  rw [snprintf, List.length_take]
  exact Nat.min_le_left _ _

/-! ## Fixed-size fields -/

/-- A NUL-terminated text inside a `char[n]`. -/
@[ext]
structure CStr (n : Nat) where
  bytes : Bytes
  noNul : (0 : UInt8) ∉ bytes
  fits : bytes.length < n
  deriving DecidableEq

/-- The C string a buffer starts with. -/
def upToNul (src : Bytes) : Bytes := src.takeWhile (· ≠ 0)

theorem zero_not_mem_upToNul (src : Bytes) : (0 : UInt8) ∉ upToNul src := by
  intro h
  have := List.mem_takeWhile_imp h
  simp at this

theorem upToNul_of_noNul {s : Bytes} (h : (0 : UInt8) ∉ s) : upToNul s = s := by
  unfold upToNul
  rw [List.takeWhile_eq_self_iff]
  intro b hb
  have : b ≠ 0 := fun hq => h (hq ▸ hb)
  simpa using this

variable {n : Nat}

/-- `snprintf(dst, n, "%s", src)`: the source up to its terminator, cut to the room there is. -/
def CStr.copy (n : Nat) [NeZero n] (src : Bytes) : CStr n where
  bytes := snprintf n (upToNul src)
  noNul := fun h => zero_not_mem_upToNul src (List.mem_of_mem_take h)
  fits := by
    have h := length_snprintf_le n (upToNul src)
    have hn : n ≠ 0 := NeZero.ne n
    omega

/-- **A copy between fields of one size loses nothing**: the text already fits. -/
theorem CStr.copy_bytes [NeZero n] (s : CStr n) : CStr.copy n s.bytes = s := by
  ext1
  have hf := s.fits
  simp only [CStr.copy, snprintf, upToNul_of_noNul s.noNul]
  exact List.take_of_length_le (by omega)

/-! The sizes fields usually have, each with an instance of its own. -/

instance neZero_8 : NeZero 8 := ⟨by decide⟩
instance neZero_16 : NeZero 16 := ⟨by decide⟩
instance neZero_32 : NeZero 32 := ⟨by decide⟩
instance neZero_64 : NeZero 64 := ⟨by decide⟩
instance neZero_128 : NeZero 128 := ⟨by decide⟩

/-- The all-zero field `memset` leaves behind. -/
def CStr.empty (n : Nat) [NeZero n] : CStr n := CStr.copy n []

/-! ## Cutting a text at a buffer's end

Two texts with a common beginning that part at their next byte look the same through a
buffer exactly when the buffer ends inside the common part. -/

theorem snprintf_append_eq_iff {n : Nat} {p a b : Bytes} {x y : UInt8} (hxy : x ≠ y) :
    snprintf n (p ++ x :: a) = snprintf n (p ++ y :: b) ↔ n - 1 ≤ p.length := by
  unfold snprintf
  constructor
  · intro h
    by_contra hlt
    have hx : ((p ++ x :: a).take (n - 1))[p.length]? = some x := by
      rw [List.getElem?_take_of_lt (by omega)]
      simp
    have hy : ((p ++ y :: b).take (n - 1))[p.length]? = some y := by
      rw [List.getElem?_take_of_lt (by omega)]
      simp
    rw [h, hy, Option.some.injEq] at hx
    exact hxy hx.symm
  · intro hle
    rw [List.take_append_of_le_length hle, List.take_append_of_le_length hle]

end Lib
end EdgeFlow
