import Mathlib.Algebra.GroupWithZero.Nat
import Mathlib.Algebra.Ring.Parity
import Mathlib.Data.Nat.Prime.Basic
import Mathlib.Dynamics.PeriodicPts.Defs

/-!
# Shift registers — what a cyclic redundancy check detects

A register of `w` bits is shifted towards its least significant bit, and the taps are xored in
when a one falls out. Every CRC whose bits come least significant first is this register with
each message bit xored in below, so what the check can tell apart is what the register, started
at zero and fed the *difference* of two messages, does not bring back to zero.

The step is linear over xor, and the three detection results are three properties of it. It
keeps the parity of the register if the taps have an odd number of ones
(`run_ne_zero_of_odd`). It is injective if the highest tap is set, so a difference no longer
than the register is not lost (`run_ne_zero_of_burst`). And two ones cancel only if their
distance is a period of the register (`run_ne_zero_of_pair`), which is a question about one
orbit: `jump` computes a far state of it by squaring, and `iterate_ne_of_lt` reads off a period
and its prime divisors that there is no shorter one.
-/

set_option autoImplicit false

namespace EdgeFlow
namespace Lib
namespace ShiftRegister

variable {w : Nat} (taps : BitVec w)

/-! ## The register -/

/-- One shift. -/
def step (y : BitVec w) : BitVec w :=
  if y.getLsbD 0 then (y >>> 1) ^^^ taps else y >>> 1

/-- The register after the first `n` bits of `f`, a one being xored in as `u`. -/
def run (u r : BitVec w) (f : Nat → Bool) : Nat → BitVec w
  | 0 => r
  | n + 1 => step taps (run u r f n ^^^ if f n then u else 0#w)

theorem step_eq (y : BitVec w) : step taps y = (y >>> 1) ^^^ if y.getLsbD 0 then taps else 0#w := by
  unfold step
  split
  · rfl
  · simp

@[simp]
theorem step_zero : step taps 0#w = 0#w := by
  simp [step]

@[simp]
theorem iterate_step_zero (n : Nat) : (step taps)^[n] 0#w = 0#w :=
  Function.iterate_fixed (step_zero taps) n

theorem step_xor (x y : BitVec w) : step taps (x ^^^ y) = step taps x ^^^ step taps y := by
  rw [step_eq, step_eq, step_eq, BitVec.ushiftRight_xor_distrib, BitVec.getLsbD_xor]
  ext i hi
  simp only [BitVec.getElem_xor]
  cases x.getLsbD 0 <;> cases y.getLsbD 0 <;> simp <;> grind

theorem iterate_step_xor (n : Nat) (x y : BitVec w) :
    (step taps)^[n] (x ^^^ y) = (step taps)^[n] x ^^^ (step taps)^[n] y := by
  induction n with
  | zero => rfl
  | succ n ih => simp only [Function.iterate_succ_apply', ih, step_xor]

/-! ## Runs -/

theorem run_congr {u r : BitVec w} {f g : Nat → Bool} {n : Nat} (h : ∀ i, i < n → f i = g i) :
    run taps u r f n = run taps u r g n := by
  induction n with
  | zero => rfl
  | succ n ih =>
    have hn := ih fun i hi => h i (Nat.lt_succ_of_lt hi)
    rw [run, run, hn, h n (Nat.lt_succ_self n)]

theorem run_add (u r : BitVec w) (f : Nat → Bool) (n m : Nat) :
    run taps u r f (n + m) = run taps u (run taps u r f n) (fun i => f (n + i)) m := by
  induction m with
  | zero => rfl
  | succ m ih => rw [← Nat.add_assoc, run, run, ih]

/-- Without a one the register is only shifted. -/
theorem run_quiet {u r : BitVec w} {f : Nat → Bool} {a n : Nat} (han : a ≤ n)
    (h : ∀ i, a ≤ i → i < n → f i = false) :
    run taps u r f n = (step taps)^[n - a] (run taps u r f a) := by
  induction n, han using Nat.le_induction with
  | base => simp
  | succ n hn ih =>
    have hrest := ih fun i hi hlt => h i hi (Nat.lt_succ_of_lt hlt)
    rw [run, h n hn (Nat.lt_succ_self n), hrest, Nat.succ_sub hn, Function.iterate_succ_apply']
    simp

theorem run_zero_quiet {u : BitVec w} {f : Nat → Bool} {n : Nat}
    (h : ∀ i, i < n → f i = false) : run taps u 0#w f n = 0#w := by
  rw [run_quiet taps (Nat.zero_le n) fun i _ hi => h i hi]
  exact iterate_step_zero taps _

/-- **Runs are linear**: two messages and two starting values are fed as one. -/
theorem run_xor (u r s : BitVec w) (f g : Nat → Bool) (n : Nat) :
    run taps u (r ^^^ s) (fun i => f i ^^ g i) n = run taps u r f n ^^^ run taps u s g n := by
  induction n with
  | zero => rfl
  | succ n ih =>
    have hbit : (if (f n ^^ g n) = true then u else 0#w) =
        (if f n then u else 0#w) ^^^ (if g n then u else 0#w) := by
      cases f n <;> cases g n <;> simp
    rw [run, run, run, ih, hbit, ← step_xor]
    congr 1
    ac_rfl

theorem iterate_run (m : Nat) (u r : BitVec w) (f : Nat → Bool) (n : Nat) :
    (step taps)^[m] (run taps u r f n) =
      run taps ((step taps)^[m] u) ((step taps)^[m] r) f n := by
  induction n with
  | zero => rfl
  | succ n ih =>
    have hbit : (step taps)^[m] (if f n then u else 0#w) =
        if f n then (step taps)^[m] u else 0#w := by
      split
      · rfl
      · exact iterate_step_zero taps m
    rw [run, run, ← Function.iterate_succ_apply, Function.iterate_succ_apply', iterate_step_xor,
      ih, hbit]

/-- A word in the register does the work of its lowest bit from below, and moves down. -/
theorem step_low (y : BitVec w) :
    step taps y = step taps (if y.getLsbD 0 then 1#w else 0#w) ^^^ (y >>> 1) := by
  by_cases hy : y.getLsbD 0 = true
  · have hw : 0 < w := BitVec.lt_of_getLsbD hy
    have hone : step taps 1#w = taps := by
      rw [step_eq]
      ext i hi
      simp [hw]
    rw [if_pos hy, hone, step_eq, if_pos hy, BitVec.xor_comm]
  · rw [if_neg hy, step_eq, if_neg hy, step_zero, BitVec.xor_comm]

/-- **Absorbing a word**: shifting it through the register is feeding its bits, lowest first,
    but for the bits not yet shifted out. -/
theorem iterate_step_absorb (r v : BitVec w) (k : Nat) :
    (step taps)^[k] (r ^^^ v) = run taps 1#w r v.getLsbD k ^^^ (v >>> k) := by
  induction k with
  | zero => simp [run]
  | succ k ih =>
    have hlow := step_low taps (v >>> k)
    rw [BitVec.getLsbD_ushiftRight, Nat.add_zero, ← BitVec.shiftRight_add] at hlow
    rw [Function.iterate_succ_apply', ih, run, step_xor, step_xor, hlow, BitVec.xor_assoc]

/-- A whole word of bits is a word shifted through. -/
theorem run_word (r v : BitVec w) :
    run taps 1#w r v.getLsbD w = (step taps)^[w] (r ^^^ v) := by
  have hout : v >>> w = 0#w := by
    ext i hi
    simp
  rw [iterate_step_absorb, hout, BitVec.xor_zero]

/-! ## Injectivity, and short differences -/

/-- With the highest tap set no word but zero is shifted to zero. -/
theorem step_eq_zero {taps : BitVec w} (htop : taps.getLsbD (w - 1) = true) {y : BitVec w}
    (h : step taps y = 0#w) : y = 0#w := by
  have hbit : ∀ i, (y.getLsbD (1 + i) ^^ (y.getLsbD 0 && taps.getLsbD i)) = false := by
    intro i
    have := congrArg (fun v : BitVec w => v.getLsbD i) h
    rw [step_eq] at this
    cases hy : y.getLsbD 0 <;> simpa [hy] using this
  -- above the highest tap there is nothing left to cancel it
  have hlow : y.getLsbD 0 = false := by
    have hw : w ≤ 1 + (w - 1) := by omega
    have := hbit (w - 1)
    rw [BitVec.getLsbD_of_ge y _ hw, htop] at this
    simpa using this
  apply BitVec.eq_of_getLsbD_eq
  intro i _
  rw [BitVec.getLsbD_zero]
  cases i with
  | zero => exact hlow
  | succ i =>
    have := hbit i
    rw [hlow, Nat.add_comm 1 i] at this
    simpa using this

theorem iterate_step_eq_zero {taps : BitVec w} (htop : taps.getLsbD (w - 1) = true) {y : BitVec w}
    {n : Nat} (h : (step taps)^[n] y = 0#w) : y = 0#w := by
  induction n with
  | zero => exact h
  | succ n ih =>
    rw [Function.iterate_succ_apply'] at h
    exact ih (step_eq_zero htop h)

/-- The first `k` bits of `g` as a word. -/
theorem exists_word (g : Nat → Bool) {k : Nat} (hk : k ≤ w) :
    ∃ v : BitVec w, ∀ j, v.getLsbD j = (decide (j < k) && g j) := by
  refine ⟨(BitVec.ofBoolListLE ((List.range k).map g)).setWidth w, ?_⟩
  intro j
  rw [BitVec.getLsbD_setWidth, BitVec.getLsbD_ofBoolListLE]
  by_cases hj : j < k
  · simp [hj, Nat.lt_of_lt_of_le hj hk]
  · simp [hj]

/-- Feeding no more bits than the register has is shifting their word through. -/
theorem run_eq_iterate {v : BitVec w} {g : Nat → Bool} {k : Nat}
    (hv : ∀ j, v.getLsbD j = (decide (j < k) && g j)) :
    run taps 1#w 0#w g k = (step taps)^[k] v := by
  have hrun : run taps 1#w 0#w g k = run taps 1#w 0#w v.getLsbD k := by
    apply run_congr
    intro j hj
    rw [hv, decide_eq_true hj, Bool.true_and]
  have hout : v >>> k = 0#w := by
    apply BitVec.eq_of_getLsbD_eq
    intro j _
    simp [hv]
  have habsorb := iterate_step_absorb taps 0#w v k
  rw [BitVec.zero_xor, hout, BitVec.xor_zero] at habsorb
  rw [hrun, habsorb]

/-- A difference that is no longer than the register and ends with the message is not lost. -/
theorem run_ne_zero_of_short {taps : BitVec w} (htop : taps.getLsbD (w - 1) = true)
    {g : Nat → Bool} {k i : Nat} (hk : k ≤ w) (hi : i < k) (hg : g i = true) :
    run taps 1#w 0#w g k ≠ 0#w := by
  obtain ⟨v, hv⟩ := exists_word g hk
  intro hzero
  rw [run_eq_iterate taps hv] at hzero
  have hbit := hv i
  rw [iterate_step_eq_zero htop hzero, BitVec.getLsbD_zero, decide_eq_true hi, hg] at hbit
  cases hbit

/-- **Bursts**: a difference within `w` consecutive bits is not brought back to zero. -/
theorem run_ne_zero_of_burst {taps : BitVec w} (htop : taps.getLsbD (w - 1) = true)
    {f : Nat → Bool} {n start i : Nat} (hi : i < n) (hf : f i = true)
    (h : ∀ j, j < n → f j = true → start ≤ j ∧ j < start + w) :
    run taps 1#w 0#w f n ≠ 0#w := by
  have hin := h i hi hf
  have hquiet : ∀ j, j < n → ¬ (start ≤ j ∧ j < start + w) → f j = false := by
    intro j hj hout
    by_contra hc
    exact hout (h j hj (by simpa using hc))
  -- before the window nothing, behind it shifts only
  let k := min w (n - start)
  have hbefore : run taps 1#w 0#w f start = 0#w :=
    run_zero_quiet taps fun j hj => hquiet j (by omega) (by omega)
  have hbehind : run taps 1#w 0#w f n = (step taps)^[n - (start + k)]
      (run taps 1#w 0#w f (start + k)) :=
    run_quiet taps (by omega) fun j hj hlt => hquiet j hlt (by omega)
  have hwindow : run taps 1#w 0#w (fun j => f (start + j)) k ≠ 0#w := by
    apply run_ne_zero_of_short htop (i := i - start) (by omega) (by omega)
    rwa [Nat.add_sub_cancel' hin.1]
  intro hzero
  rw [hbehind, run_add, hbefore] at hzero
  exact hwindow (iterate_step_eq_zero htop hzero)

/-- **Pairs**: two ones cancel only if their distance is a period. -/
theorem run_ne_zero_of_pair {taps : BitVec w} (htop : taps.getLsbD (w - 1) = true)
    {f : Nat → Bool} {n i j : Nat} (hij : i < j) (hj : j < n)
    (h : ∀ k, k < n → (f k = true ↔ k = i ∨ k = j))
    (hne : (step taps)^[j - i] 1#w ≠ 1#w) : run taps 1#w 0#w f n ≠ 0#w := by
  have hquiet : ∀ k, k < n → k ≠ i → k ≠ j → f k = false := by
    intro k hk hki hkj
    by_contra hc
    have := (h k hk).mp (by simpa using hc)
    omega
  have hfi : f i = true := (h i (by omega)).mpr (Or.inl rfl)
  have hfj : f j = true := (h j hj).mpr (Or.inr rfl)
  have hfirst : run taps 1#w 0#w f i = 0#w :=
    run_zero_quiet taps fun k hk => hquiet k (by omega) (by omega) (by omega)
  have hsecond : run taps 1#w 0#w f j = (step taps)^[j - i] 1#w := by
    have hshift : j - i = j - (i + 1) + 1 := by omega
    rw [run_quiet taps (show i + 1 ≤ j from hij)
      fun k hk hlt => hquiet k (by omega) (by omega) (by omega), run, hfirst, if_pos hfi,
      BitVec.zero_xor, hshift, Function.iterate_succ_apply]
  have hend : run taps 1#w 0#w f n = (step taps)^[n - (j + 1)] (run taps 1#w 0#w f (j + 1)) :=
    run_quiet taps hj fun k hk hlt => hquiet k hlt (by omega) (by omega)
  intro hzero
  rw [hend, run, hsecond, if_pos hfj] at hzero
  have := step_eq_zero htop (iterate_step_eq_zero htop hzero)
  exact hne (BitVec.xor_eq_zero_iff.mp this)

/-! ## Parity, and odd differences -/

/-- Whether an odd number of the first `n` bits are ones. -/
def parityUpTo (f : Nat → Bool) : Nat → Bool
  | 0 => false
  | n + 1 => parityUpTo f n ^^ f n

def parity (y : BitVec w) : Bool := parityUpTo y.getLsbD w

theorem parityUpTo_eq_true_iff (f : Nat → Bool) (n : Nat) :
    parityUpTo f n = true ↔ Odd ((Finset.range n).filter fun i => f i = true).card := by
  induction n with
  | zero => simp [parityUpTo]
  | succ n ih =>
    rw [parityUpTo, Finset.range_add_one, Finset.filter_insert]
    by_cases hn : f n = true
    · rw [if_pos hn, Finset.card_insert_of_notMem (by simp), Nat.odd_add_one, ← ih, hn]
      simp
    · rw [if_neg hn, ← ih]
      simp [hn]

theorem parityUpTo_xor (f g : Nat → Bool) (n : Nat) :
    parityUpTo (fun i => f i ^^ g i) n = (parityUpTo f n ^^ parityUpTo g n) := by
  induction n with
  | zero => rfl
  | succ n ih =>
    rw [parityUpTo, parityUpTo, parityUpTo, ih, Bool.xor_assoc, Bool.xor_assoc,
      Bool.xor_left_comm (f n)]

theorem parityUpTo_head (f : Nat → Bool) (n : Nat) :
    parityUpTo f (n + 1) = (f 0 ^^ parityUpTo (fun i => f (1 + i)) n) := by
  induction n with
  | zero => simp [parityUpTo]
  | succ n ih =>
    rw [parityUpTo, ih, parityUpTo, Bool.xor_assoc, Nat.add_comm 1 n]

theorem parity_xor (x y : BitVec w) : parity (x ^^^ y) = (parity x ^^ parity y) := by
  have hbits : (x ^^^ y).getLsbD = fun i => x.getLsbD i ^^ y.getLsbD i := by
    funext i
    exact BitVec.getLsbD_xor
  rw [parity, hbits, parityUpTo_xor, parity, parity]

/-- The bit that falls out is all the parity loses. -/
theorem parity_ushiftRight_one (y : BitVec w) : parity (y >>> 1) = (parity y ^^ y.getLsbD 0) := by
  have hbits : (y >>> 1).getLsbD = fun i => y.getLsbD (1 + i) := by
    funext i
    exact BitVec.getLsbD_ushiftRight y 1 i
  have htop : parityUpTo y.getLsbD (w + 1) = parity y := by
    rw [parityUpTo, BitVec.getLsbD_of_ge y w (Nat.le_refl w), Bool.xor_false, parity]
  rw [← htop, parityUpTo_head, parity, hbits, Bool.xor_comm (y.getLsbD 0), Bool.xor_assoc,
    Bool.xor_self, Bool.xor_false]

/-- **A step keeps the parity** if the number of taps is odd. -/
theorem parity_step {taps : BitVec w} (ht : parity taps = true) (y : BitVec w) :
    parity (step taps y) = parity y := by
  unfold step
  split
  · rename_i hy
    rw [parity_xor, parity_ushiftRight_one, ht, hy, Bool.xor_assoc, Bool.xor_self,
      Bool.xor_false]
  · rename_i hy
    rw [parity_ushiftRight_one, Bool.eq_false_of_not_eq_true hy, Bool.xor_false]

theorem parity_zero : parity 0#w = false := by
  have h := parity_xor 0#w 0#w
  rw [BitVec.xor_self, Bool.xor_self] at h
  exact h

theorem parity_run {taps u : BitVec w} (ht : parity taps = true) (hu : parity u = true)
    (r : BitVec w) (f : Nat → Bool) (n : Nat) :
    parity (run taps u r f n) = (parity r ^^ parityUpTo f n) := by
  induction n with
  | zero => simp [run, parityUpTo]
  | succ n ih =>
    have hbit : parity (if f n then u else 0#w) = f n := by
      cases f n
      · exact parity_zero
      · exact hu
    rw [run, parity_step ht, parity_xor, ih, hbit, parityUpTo, Bool.xor_assoc]

/-- **Odd differences** are not brought back to zero. -/
theorem run_ne_zero_of_odd {taps u : BitVec w} (ht : parity taps = true) (hu : parity u = true)
    {f : Nat → Bool} {n : Nat} (h : Odd ((Finset.range n).filter fun i => f i = true).card) :
    run taps u 0#w f n ≠ 0#w := by
  intro hzero
  have hparity := parity_run ht hu 0#w f n
  rw [hzero, parity_zero, (parityUpTo_eq_true_iff f n).mpr h] at hparity
  cases hparity

/-! ## Periods -/

/-- `u` times `v`, a word standing for the state its bits lead to from zero. -/
def mul (u v : BitVec w) : BitVec w := run taps u 0#w v.getLsbD w

theorem mul_iterate (m n : Nat) :
    mul taps ((step taps)^[m] 1#w) ((step taps)^[n] 1#w) = (step taps)^[m + (w + n)] 1#w := by
  have hrun := iterate_run taps m 1#w 0#w ((step taps)^[n] 1#w).getLsbD w
  rw [iterate_step_zero, run_word, BitVec.zero_xor] at hrun
  rw [mul, ← hrun, Function.iterate_add_apply _ m, Function.iterate_add_apply _ w]

/-- The register after `n` shifts from one, by squaring: `fuel` is how often the distance may be
    halved. -/
def jump : Nat → Nat → BitVec w
  | 0, n => (step taps)^[n] 1#w
  | fuel + 1, n =>
    if n < w then (step taps)^[n] 1#w
    else
      let half := jump fuel ((n - w) / 2)
      if (n - w) % 2 = 0 then mul taps half half else step taps (mul taps half half)

theorem jump_eq (fuel : Nat) : ∀ n, jump taps fuel n = (step taps)^[n] 1#w := by
  induction fuel with
  | zero =>
    intro n
    rfl
  | succ fuel ih =>
    intro n
    rw [jump]
    split
    · rfl
    · have hsquare := mul_iterate taps ((n - w) / 2) ((n - w) / 2)
      simp only [ih, hsquare]
      split
      · congr 1
        omega
      · rw [← Function.iterate_succ_apply' (step taps)]
        congr 1
        omega

/-- A period none of whose quotients by a prime is one is the shortest. -/
theorem iterate_ne_of_lt {α : Type} {f : α → α} {x : α} {N d : Nat} (hN : f^[N] x = x)
    (hp : ∀ p, p.Prime → p ∣ N → f^[N / p] x ≠ x) (hd : 0 < d) (hlt : d < N) : f^[d] x ≠ x := by
  intro hperiod
  have hdvdN : Function.minimalPeriod f x ∣ N := Function.IsPeriodicPt.minimalPeriod_dvd hN
  have hdvdd : Function.minimalPeriod f x ∣ d := Function.IsPeriodicPt.minimalPeriod_dvd hperiod
  have hle := Nat.le_of_dvd hd hdvdd
  obtain ⟨q, hq⟩ := hdvdN
  have hq1 : q ≠ 1 := by
    rintro rfl
    omega
  obtain ⟨p, hprime, k, rfl⟩ := Nat.exists_prime_and_dvd hq1
  have hNp : N = p * (Function.minimalPeriod f x * k) := by
    rw [hq]
    ac_rfl
  apply hp p hprime ⟨_, hNp⟩
  rw [hNp, Nat.mul_div_cancel_left _ hprime.pos]
  exact (Function.isPeriodicPt_minimalPeriod f x).mul_const k

end ShiftRegister
end Lib
end EdgeFlow
