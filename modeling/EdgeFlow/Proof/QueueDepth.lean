import Mathlib.Logic.Function.Basic
import EdgeFlow.Proof.RingFifo

/-!
# The queue depth a thread reads

`spsc_ring_count` loads `head` and then `tail`, and the other thread may move its own index in
between. The caller's index stands still: it is between two of its own operations. So of the two
loads only one is of a moving index, and **the depth read is the depth at that load** — the second
for the producer, the first for the consumer.
-/

set_option autoImplicit false

namespace EdgeFlow

/-- The branch `spsc_ring_count` takes on these indices does not leave `uint32_t`. -/
def NoWrap (size head tail : Nat) : Prop :=
  tail ≤ head ∨ (tail ≤ size ∧ size - tail + head < 2 ^ 32)

/-- The value is a depth the queue had during the call, below the ring's size. -/
structure TrueDepth (size : Nat) (r : CountResult) : Prop where
  seen : r.count ∈ r.seen
  le : r.count ≤ size - 1
  noWrap : NoWrap size r.head r.tail

namespace Proof

open Lib

variable {α : Type} {size : Nat}

/-! ## What a call knows -/

/-- What the loads made so far know: the producer's `head` is the ring's, the consumer's stands
    for a depth the queue had since the call began. -/
def CountOk (size : Nat) (s : RingSys α) (t : RingThread) (c : CountCall) : Prop :=
  match c.pc, t with
  | .start, _ => True
  | .gotHead head, .producer => head = s.pushed.length % size
  | .gotHead head, .consumer =>
    ∃ d ∈ c.seen, d ≤ size - 1 ∧ head = (s.popped.length + d) % size
  | .ret head tail count, _ => TrueDepth size ⟨head, tail, count, c.seen⟩

/-- A call in progress: its thread does nothing else, and the depth now has been recorded. -/
structure CallOk (size : Nat) (s : RingSys α) (t : RingThread) (c : CountCall) : Prop where
  idle : s.idle t = true
  now : s.queue.length ∈ c.seen
  loads : CountOk size s t c

structure DepthInv (size : Nat) (s : DepthSys α) : Prop where
  ring : RingInv size s.sys
  call : ∀ t c, s.calls t = some c → CallOk size s.sys t c
  results : ∀ r ∈ s.results, TrueDepth size r

theorem depthInv_start {ring : SpscRing α} {zero : α} (h : spscRingInit size zero = some ring) :
    DepthInv size (depthStart ring) where
  ring := ringInv_init h
  call t c hc := by cases hc
  results r hr := by cases hr

/-! ## The other thread's steps -/

/-- The consumer pushes nothing. -/
theorem consumer_frame {s s' : RingSys α} {a : RingAct α} (ha : a.thread = .consumer)
    (h : ringStep s a = some s') : s'.prod = s.prod ∧ s'.pushed = s.pushed := by
  cases a with
  | pop =>
    obtain ⟨hp, hpushed, -⟩ := popStep_frame h
    exact ⟨hp, hpushed⟩
  | callPop =>
    cases ringStep_move h with
    | callPop hpc => exact ⟨rfl, rfl⟩
  | retPop =>
    cases ringStep_move h with
    | retPop hpc => exact ⟨rfl, rfl⟩
  | _ => cases ha

/-- What one thread's step leaves to the other. -/
theorem other_frame {s s' : RingSys α} {a : RingAct α} (h : ringStep s a = some s') :
    (a.thread = .producer → s'.cons = s.cons ∧ s'.popped = s.popped) ∧
    (a.thread = .consumer → s'.prod = s.prod ∧ s'.pushed = s.pushed) := by
  refine ⟨fun ha => ?_, fun ha => consumer_frame ha h⟩
  have hp : isProducer a = true := by
    cases a with
    | callPush v => rfl
    | push => rfl
    | retPush => rfl
    | _ => cases ha
  obtain ⟨hc, hpopped, -⟩ := producer_frame hp h
  exact ⟨hc, hpopped⟩

theorem idle_other {s s' : RingSys α} {a : RingAct α} {t : RingThread} (ht : t ≠ a.thread)
    (h : ringStep s a = some s') : s'.idle t = s.idle t := by
  obtain ⟨hprod, hcons⟩ := other_frame h
  cases ha : a.thread with
  | producer =>
    cases t with
    | producer => exact absurd ha.symm ht
    | consumer => simp only [RingSys.idle, (hprod ha).1]
  | consumer =>
    cases t with
    | producer => simp only [RingSys.idle, (hcons ha).1]
    | consumer => exact absurd ha.symm ht

/-- **A call in progress keeps what it knows while the other thread steps.** -/
theorem CountOk.other {s s' : RingSys α} {a : RingAct α} {t : RingThread} {c : CountCall}
    (hc : CountOk size s t c) (ht : t ≠ a.thread) (h : ringStep s a = some s') (d : Nat) :
    CountOk size s' t { c with seen := c.seen ++ [d] } := by
  obtain ⟨hprod, hcons⟩ := other_frame h
  obtain ⟨pc, seen⟩ := c
  cases pc with
  | start => trivial
  | gotHead head =>
    cases t with
    | producer =>
      have ha : a.thread = .consumer := by
        cases ha : a.thread with
        | producer => exact absurd ha.symm ht
        | consumer => rfl
      show head = s'.pushed.length % size
      rw [(hcons ha).2]
      exact hc
    | consumer =>
      have ha : a.thread = .producer := by
        cases ha : a.thread with
        | producer => rfl
        | consumer => exact absurd ha.symm ht
      obtain ⟨e, he, hle, heq⟩ := hc
      refine ⟨e, List.mem_append_left _ he, hle, ?_⟩
      rw [(hprod ha).2]
      exact heq
  | ret head tail count => exact ⟨List.mem_append_left _ hc.seen, hc.le, hc.noWrap⟩

/-! ## The two loads -/

/-- Indices less than a window apart keep the count inside `uint32_t`. -/
theorem noWrap_window {P R : Nat} (hsize : 0 < size) (hlt : size < 2 ^ 32) :
    NoWrap size (P % size) (R % size) := by
  have hP := Nat.mod_lt P hsize
  have hR := Nat.mod_lt R hsize
  unfold NoWrap
  omega

/-- The depth `d` between the counts `R` and `R + d`. -/
theorem trueDepth_of_counts (hsize : 2 ≤ size) (hlt : size < 2 ^ 32) {R d : Nat} {seen : List Nat}
    (hd : d ∈ seen) (hle : d ≤ size - 1) :
    TrueDepth size ⟨(R + d) % size, R % size,
      ringCount size ((R + d) % size) (R % size), seen⟩ := by
  have hcount : ringCount size ((R + d) % size) (R % size) = d := by
    rw [ringCount_window (by omega) hlt (by omega) (by omega)]
    omega
  refine ⟨?_, ?_, noWrap_window (by omega) hlt⟩
  · rw [hcount]
    exact hd
  · show ringCount size ((R + d) % size) (R % size) ≤ size - 1
    rw [hcount]
    exact hle

/-- One step of the call, in a state where nothing else moves. -/
theorem CountOk.countStep {s : RingSys α} {t : RingThread} {c : CountCall} {pc : CountPc}
    (hsize : 2 ≤ size) (hlt : size < 2 ^ 32) (hi : RingInv size s) (hc : CountOk size s t c)
    (hnow : s.queue.length ∈ c.seen) (h : countStep s.ring c.pc = some pc) :
    CountOk size s t { c with pc := pc } := by
  obtain ⟨-, hlength, hcap⟩ := hi.counts
  obtain ⟨cpc, seen⟩ := c
  cases cpc with
  | start =>
    cases h
    cases t with
    | producer => exact hi.head
    | consumer =>
      refine ⟨s.queue.length, hnow, hcap, ?_⟩
      rw [hi.head, hlength]
  | gotHead head =>
    cases h
    show TrueDepth size ⟨head, s.ring.tail, ringCount s.ring.size head s.ring.tail, seen⟩
    rw [hi.size_eq, hi.tail]
    cases t with
    | producer =>
      have hhead : head = (s.popped.length + s.queue.length) % size := by
        rw [← hlength]
        exact hc
      rw [hhead]
      exact trueDepth_of_counts hsize hlt hnow hcap
    | consumer =>
      obtain ⟨d, hd, hle, hhead⟩ := hc
      rw [hhead]
      exact trueDepth_of_counts hsize hlt hd hle
  | ret head tail count => cases h

/-! ## Runs -/

/-- A call of an updated record is the new one or an old one. -/
theorem update_eq_some {calls : RingThread → Option CountCall} {t u : RingThread}
    {v : Option CountCall} {c : CountCall} (h : Function.update calls t v u = some c) :
    (u = t ∧ v = some c) ∨ calls u = some c := by
  by_cases hu : u = t
  · subst hu
    rw [Function.update_self] at h
    exact .inl ⟨rfl, h⟩
  · rw [Function.update_of_ne hu] at h
    exact .inr h

theorem DepthInv.ringStep {s : DepthSys α} {a : RingAct α} {sys : RingSys α} (hsize : 2 ≤ size)
    (hlt : size < 2 ^ 32) (hi : DepthInv size s) (hcall : s.calls a.thread = none)
    (h : ringStep s.sys a = some sys) :
    DepthInv size { s with
      sys := sys
      calls := fun t => (s.calls t).map fun c =>
        { c with seen := c.seen ++ [sys.queue.length] } } where
  ring := RingInv.step hsize hlt s.sys a sys hi.ring h
  call t c' hc' := by
    obtain ⟨c, hc, rfl⟩ := Option.map_eq_some_iff.mp hc'
    have hother : t ≠ a.thread := by
      intro heq
      rw [heq, hcall] at hc
      cases hc
    have hok := hi.call t c hc
    refine ⟨?_, List.mem_append_right _ (List.mem_singleton.mpr rfl), hok.loads.other hother h _⟩
    rw [idle_other hother h]
    exact hok.idle
  results := hi.results

theorem DepthInv.step (hsize : 2 ≤ size) (hlt : size < 2 ^ 32) (s : DepthSys α) (a : DepthAct α)
    (s' : DepthSys α) (hi : DepthInv size s) (h : depthStep s a = some s') :
    DepthInv size s' := by
  cases a with
  | ring a =>
    simp only [depthStep] at h
    cases hcall : s.calls a.thread with
    | some c => simp [hcall] at h
    | none =>
      simp only [hcall] at h
      obtain ⟨sys, hsys, rfl⟩ := Option.map_eq_some_iff.mp h
      exact hi.ringStep hsize hlt hcall hsys
  | callCount t =>
    simp only [depthStep, Option.ite_none_right_eq_some, Bool.and_eq_true] at h
    obtain ⟨⟨hidle, -⟩, h⟩ := h
    cases h
    refine ⟨hi.ring, fun u c hc => ?_, hi.results⟩
    rcases update_eq_some hc with ⟨rfl, hnew⟩ | hold
    · cases hnew
      exact ⟨hidle, List.mem_singleton.mpr rfl, trivial⟩
    · exact hi.call u c hold
  | count t =>
    simp only [depthStep] at h
    cases hcall : s.calls t with
    | none => simp [hcall] at h
    | some c =>
      simp only [hcall] at h
      obtain ⟨pc, hpc, rfl⟩ := Option.map_eq_some_iff.mp h
      have hok := hi.call t c hcall
      refine ⟨hi.ring, fun u c' hc' => ?_, hi.results⟩
      rcases update_eq_some hc' with ⟨rfl, hnew⟩ | hold
      · cases hnew
        exact ⟨hok.idle, hok.now, hok.loads.countStep hsize hlt hi.ring hok.now hpc⟩
      · exact hi.call u c' hold
  | retCount t =>
    simp only [depthStep] at h
    cases hcall : s.calls t with
    | none => simp [hcall] at h
    | some c =>
      obtain ⟨pc, seen⟩ := c
      cases pc with
      | start => simp [hcall] at h
      | gotHead head => simp [hcall] at h
      | ret head tail count =>
        simp only [hcall, Option.some.injEq] at h
        subst h
        refine ⟨hi.ring, fun u c' hc' => ?_, fun r hr => ?_⟩
        · rcases update_eq_some hc' with ⟨-, hnew⟩ | hold
          · cases hnew
          · exact hi.call u c' hold
        · rcases List.mem_append.mp hr with hr | hr
          · exact hi.results r hr
          · -- the call knew this of its loads when it computed the count
            rw [List.mem_singleton.mp hr]
            exact (hi.call t _ hcall).loads

/-- **The depth a thread reads is a true depth.** For every ring and every interleaving of the two
    threads' pushes, pops and calls of `spsc_ring_count`: what a call returned is the number of
    values the queue held at some instant of the call, at most `size - 1`, and was computed without
    wrapping around. -/
theorem ring_count_is_true_depth (size : Nat) (hsize : 2 ≤ size) (hlt : size < 2 ^ 32) (zero : α)
    (ring : SpscRing α) (hinit : spscRingInit size zero = some ring) (acts : List (DepthAct α))
    (s : DepthSys α) (h : run depthStep (depthStart ring) acts = some s) :
    ∀ r ∈ s.results, TrueDepth size r :=
  (run_inv (DepthInv.step hsize hlt) (depthInv_start hinit) h).results

/-- The consumer reads the depth while the producer pushes a second value between its two
    loads: it is told `1`, the depth at the first. -/
def overtakenCount : List (DepthAct Nat) :=
  [.ring (.callPush 7), .ring .push, .ring .push, .ring .push, .ring .push, .ring .retPush,
    .callCount .consumer, .count .consumer,
    .ring (.callPush 8), .ring .push, .ring .push, .ring .push, .ring .push,
    .count .consumer, .retCount .consumer]

theorem ring_count_is_true_depth_overtaken :
    ∃ s : DepthSys Nat,
      run depthStep (depthStart ⟨[0, 0, 0, 0], 4, 0, 0, 0⟩) overtakenCount = some s ∧
      s.results.map (fun r => (r.head, r.tail, r.count, r.seen)) = [(1, 0, 1, [1, 1, 1, 1, 1, 2])] ∧
      ∀ r ∈ s.results, TrueDepth 4 r := by
  have hrun : (run depthStep (depthStart ⟨[0, 0, 0, 0], 4, 0, 0, 0⟩) overtakenCount).map
      (fun s => s.results.map fun r => (r.head, r.tail, r.count, r.seen)) =
        some [(1, 0, 1, [1, 1, 1, 1, 1, 2])] := by
    decide +kernel
  obtain ⟨s, hs, hres⟩ := Option.map_eq_some_iff.mp hrun
  exact ⟨s, hs, hres, ring_count_is_true_depth 4 (by decide) (by decide) 0
    ⟨[0, 0, 0, 0], 4, 0, 0, 0⟩ rfl overtakenCount s hs⟩

end Proof
end EdgeFlow
