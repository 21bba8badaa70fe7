import Mathlib.Data.List.Basic
import Mathlib.Data.Nat.ModEq

/-!
# Bounded FIFO queues, and the index arithmetic of a circular buffer

What a bounded queue *is*: a list, an operation that puts a value at its end when there is room,
and one that takes the value at its front. A concurrent implementation refines it if the
operations it performs, in the order of the instants at which they take effect, form a
`FifoRun`; everything a client may rely on then follows from `FifoRun.conserve` and
`FifoRun.length_le` without looking at the implementation again.

The second half is the one fact circular indices rest on: within a window shorter than the
buffer, a position is determined by its remainder.
-/

set_option autoImplicit false

namespace EdgeFlow
namespace Lib

variable {α : Type}

inductive FifoOp (α : Type) where
  | enq (v : α)
  | deq (v : α)

inductive FifoStep (cap : Nat) : List α → FifoOp α → List α → Prop where
  | enq {q : List α} {v : α} : q.length < cap → FifoStep cap q (.enq v) (q ++ [v])
  | deq {q : List α} {v : α} : FifoStep cap (v :: q) (.deq v) q

/-- A run of the queue from empty; operations are added at the end. -/
inductive FifoRun (cap : Nat) : List (FifoOp α) → List α → Prop where
  | nil : FifoRun cap [] []
  | snoc {ops : List (FifoOp α)} {q q' : List α} {op : FifoOp α} :
      FifoRun cap ops q → FifoStep cap q op q' → FifoRun cap (ops ++ [op]) q'

/-- The values that went in, in order. -/
def enqs (ops : List (FifoOp α)) : List α :=
  ops.filterMap fun op => match op with
    | .enq v => some v
    | .deq _ => none

/-- The values that came out, in order. -/
def deqs (ops : List (FifoOp α)) : List α :=
  ops.filterMap fun op => match op with
    | .enq _ => none
    | .deq v => some v

@[simp] theorem enqs_snoc_enq (ops : List (FifoOp α)) (v : α) :
    enqs (ops ++ [.enq v]) = enqs ops ++ [v] := by
  simp [enqs]

@[simp] theorem enqs_snoc_deq (ops : List (FifoOp α)) (v : α) :
    enqs (ops ++ [.deq v]) = enqs ops := by
  simp [enqs]

@[simp] theorem deqs_snoc_enq (ops : List (FifoOp α)) (v : α) :
    deqs (ops ++ [.enq v]) = deqs ops := by
  simp [deqs]

@[simp] theorem deqs_snoc_deq (ops : List (FifoOp α)) (v : α) :
    deqs (ops ++ [.deq v]) = deqs ops ++ [v] := by
  simp [deqs]

/-- **A queue neither loses, duplicates nor reorders**: what went in is what came out, followed
    by what is still inside. -/
theorem FifoRun.conserve {cap : Nat} {ops : List (FifoOp α)} {q : List α}
    (h : FifoRun cap ops q) : enqs ops = deqs ops ++ q := by
  induction h with
  | nil => rfl
  | snoc _ hs ih =>
    cases hs with
    | enq _ =>
      rw [enqs_snoc_enq, deqs_snoc_enq, ih, List.append_assoc]
    | deq =>
      rw [enqs_snoc_deq, deqs_snoc_deq, ih, List.append_assoc, List.singleton_append]

theorem FifoRun.length_le {cap : Nat} {ops : List (FifoOp α)} {q : List α}
    (h : FifoRun cap ops q) : q.length ≤ cap := by
  induction h with
  | nil => exact Nat.zero_le _
  | snoc _ hs ih =>
    cases hs with
    | enq hlt =>
      rw [List.length_append, List.length_singleton]
      exact hlt
    | deq =>
      rw [List.length_cons] at ih
      exact Nat.le_of_succ_le ih

/-! ## Circular indices -/

/-- Positions of one window of length `n` have different remainders. -/
theorem mod_eq_iff_of_window {a b n : Nat} (hab : a ≤ b) (h : b < a + n) :
    a % n = b % n ↔ a = b := by
  constructor
  · intro he
    obtain ⟨k, hk⟩ := (Nat.modEq_iff_dvd' hab).mp he
    rcases Nat.eq_zero_or_pos k with rfl | hpos
    · omega
    · have : n ≤ n * k := Nat.le_mul_of_pos_right n hpos
      omega
  · rintro rfl
    rfl

/-- The position after `a`, computed from its remainder. -/
theorem succ_mod_mod (a n : Nat) : (a % n + 1) % n = (a + 1) % n := Nat.mod_add_mod a n 1

end Lib
end EdgeFlow
