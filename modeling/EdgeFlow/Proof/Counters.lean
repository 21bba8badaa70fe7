import EdgeFlow.Proof.Shutdown

/-!
# The pipeline's counters

Every counter is updated some steps after the queue operation it counts, by a thread that can be
interrupted in between. What each counter equals exactly is a matter of where its thread is: the
ingress counter has missed at most the push that has just returned, the processed counter at most
the point that is being stored, the publish counters at most the point that is being published.
`CountInv` says so program counter by program counter. The other thread's steps do not come into
it, because each side of each equation is written by one thread alone.
-/

set_option autoImplicit false

namespace EdgeFlow
namespace Proof

open Lib

/-! ## The dropped counter -/

/-- The pushes that found the ring full: those counted, and the one that has seen `tail` and is
    about to be. -/
def foundFull {α : Type} (s : RingSys α) : Nat :=
  s.fulls.length +
    match s.prod with
    | .gotTail _ _ next tail _ => if next = tail then 1 else 0
    | _ => 0

/-- What a step of the ring does to what the counters count: the values of returned pushes grow
    at the return of a successful one, and `dropped` counts the full ones. -/
theorem ringStep_counts {α : Type} {s s' : RingSys α} {a : RingAct α}
    (h : ringStep s a = some s') (hd : s.ring.dropped = s.fulls.length % 2 ^ 32) :
    s'.ring.dropped = s'.fulls.length % 2 ^ 32 ∧ (a ≠ .retPush → s'.accepted = s.accepted) := by
  cases ringStep_move h with
  | full hpc heq =>
    refine ⟨?_, fun _ => rfl⟩
    rw [List.length_append, List.length_singleton]
    show (s.ring.dropped + 1) % 2 ^ 32 = _
    rw [hd, Nat.mod_add_mod]
  | retPush hpc => exact ⟨hd, fun hne => absurd rfl hne⟩
  -- every other step leaves both alone
  | _ => exact ⟨hd, fun _ => rfl⟩

/-! ## The ingress thread -/

variable {V : Type}

/-- A push has returned `true` and is not counted yet. -/
def pushLag : IngressPc V → Nat
  | .pushed _ => 1
  | _ => 0

/-- What the producer's two counters say. -/
structure IngressCount (s : Pipeline V) : Prop where
  dropped : s.sys.ring.dropped = s.sys.fulls.length % 2 ^ 32
  counted : ∃ i, s.ingress_points = UInt64.ofNat i ∧ i + pushLag s.ingress = s.sys.accepted.length

theorem ofNat_succ (n : Nat) : UInt64.ofNat (n + 1) = UInt64.ofNat n + 1 := by
  rw [UInt64.ofNat_add]
  rfl

theorem IngressCount.ingressStep {s s' : Pipeline V} {a : IngressAct V} (hc : IngressCount s)
    (h : ingressStep s a = some s') : IngressCount s' := by
  obtain ⟨hd, i, hi, hlag⟩ := hc
  cases a with
  | check =>
    cases hpc : s.ingress with
    | check =>
      simp only [EdgeFlow.ingressStep, hpc, Option.some.injEq] at h
      subst h
      refine ⟨hd, i, hi, ?_⟩
      rw [hpc] at hlag
      cases s.running with
      | true => exact hlag
      | false => exact hlag
    | _ => simp [EdgeFlow.ingressStep, hpc] at h
  | poll points =>
    cases hpc : s.ingress with
    | poll =>
      simp only [EdgeFlow.ingressStep, hpc, Option.ite_none_right_eq_some, Option.some.injEq] at h
      obtain ⟨_, rfl⟩ := h
      rw [hpc] at hlag
      exact ⟨hd, i, hi, hlag⟩
    | _ => simp [EdgeFlow.ingressStep, hpc] at h
  | nextPoint =>
    cases hpc : s.ingress with
    | points rest =>
      rw [hpc] at hlag
      cases rest with
      | nil =>
        simp only [EdgeFlow.ingressStep, hpc, Option.some.injEq] at h
        subst h
        exact ⟨hd, i, hi, hlag⟩
      | cons p rest =>
        simp only [EdgeFlow.ingressStep, hpc] at h
        obtain ⟨sys, hsys, rfl⟩ := Option.map_eq_some_iff.mp h
        obtain ⟨hd', hacc⟩ := ringStep_counts hsys hd
        exact ⟨hd', i, hi, hlag.trans (congrArg List.length (hacc (by simp)).symm)⟩
    | _ => simp [EdgeFlow.ingressStep, hpc] at h
  | push =>
    cases hpc : s.ingress with
    | pushing rest =>
      rw [hpc] at hlag
      simp only [EdgeFlow.ingressStep, hpc] at h
      obtain ⟨sys, hsys, rfl⟩ := Option.map_eq_some_iff.mp h
      obtain ⟨hd', hacc⟩ := ringStep_counts hsys hd
      exact ⟨hd', i, hi, hlag.trans (congrArg List.length (hacc (by simp)).symm)⟩
    | _ => simp [EdgeFlow.ingressStep, hpc] at h
  | pushReturn =>
    cases hpc : s.ingress with
    | pushing rest =>
      rw [hpc] at hlag
      cases hprod : s.sys.prod with
      | ret v ok =>
        simp only [EdgeFlow.ingressStep, hpc, hprod, ringStep, Option.map_some,
          Option.some.injEq] at h
        subst h
        -- the push returns: a successful one is accepted, and its count is now due
        cases ok with
        | false => exact ⟨hd, i, hi, hlag⟩
        | true =>
          refine ⟨hd, i, hi, ?_⟩
          simp only [if_true, List.length_append, List.length_singleton, ← hlag]
          rfl
      | _ => simp [EdgeFlow.ingressStep, hpc, hprod] at h
    | _ => simp [EdgeFlow.ingressStep, hpc] at h
  | count =>
    cases hpc : s.ingress with
    | pushed rest =>
      simp only [EdgeFlow.ingressStep, hpc, Option.some.injEq] at h
      subst h
      rw [hpc] at hlag
      refine ⟨hd, i + 1, ?_, hlag⟩
      rw [ofNat_succ, hi]
    | _ => simp [EdgeFlow.ingressStep, hpc] at h

/-! ## The worker thread -/

/-- A point has been stored and is not counted yet. -/
def storeLag : WorkerLoopPc V → Nat
  | .count => 1
  | _ => 0

/-- A point has been counted as processed and its publish is not counted yet. -/
def publishLag (s : MeteredPipeline V) : Nat :=
  match s.pipe.worker with
  | .body => if s.counted then 0 else 1
  | _ => 0

/-- What the consumer's three counters say. -/
structure WorkerCount (s : MeteredPipeline V) : Prop where
  counted : ∃ p o, s.pipe.processed_points = UInt64.ofNat p ∧
    p + storeLag s.pipe.worker = s.pipe.stored.length ∧
    s.mqtt_publish_ok + s.mqtt_publish_fail = UInt64.ofNat o ∧ o + publishLag s = p
  outside : s.pipe.worker ≠ .body → s.counted = false

/-- The worker's counters stand still while it is elsewhere in its loop. -/
theorem WorkerCount.of_idle {s : MeteredPipeline V} (hc : WorkerCount s) {pipe : Pipeline V}
    (hprocessed : pipe.processed_points = s.pipe.processed_points)
    (hstored : pipe.stored.length = s.pipe.stored.length)
    (hlag : storeLag pipe.worker = storeLag s.pipe.worker) (hbody : s.pipe.worker ≠ .body)
    (hbody' : pipe.worker ≠ .body) : WorkerCount { s with pipe := pipe } := by
  obtain ⟨p, o, hp, hps, ho, hop⟩ := hc.counted
  have hzero : ∀ m : MeteredPipeline V, m.pipe.worker ≠ .body → publishLag m = 0 := by
    intro m hm
    unfold publishLag
    cases hw : m.pipe.worker with
    | body => exact absurd hw hm
    | _ => rfl
  refine ⟨⟨p, o, hprocessed.trans hp, ?_, ho, ?_⟩, fun _ => hc.outside hbody⟩
  · rw [hlag, hstored]
    exact hps
  · rw [hzero _ hbody']
    rw [hzero s hbody] at hop
    exact hop

/-- Nor do they move with the other threads. -/
theorem WorkerCount.frame {s : MeteredPipeline V} (hc : WorkerCount s) {pipe : Pipeline V}
    (hprocessed : pipe.processed_points = s.pipe.processed_points)
    (hstored : pipe.stored = s.pipe.stored) (hworker : pipe.worker = s.pipe.worker) :
    WorkerCount { s with pipe := pipe } := by
  obtain ⟨p, o, hp, hps, ho, hop⟩ := hc.counted
  refine ⟨⟨p, o, hprocessed.trans hp, ?_, ho, ?_⟩, ?_⟩
  · rw [hworker, hstored]
    exact hps
  · unfold publishLag at hop ⊢
    rw [hworker]
    exact hop
  · intro hne
    exact hc.outside (fun hw => hne (hworker.trans hw))

section
variable [CDouble V] {cfg : GatewayConfig V}

theorem WorkerCount.workerStep {s : MeteredPipeline V} (hc : WorkerCount s) {a : WorkerAct}
    (ha : a ≠ .body) {pipe : Pipeline V} (h : workerStep cfg s.pipe a = some pipe) :
    WorkerCount { s with pipe := pipe } := by
  rcases workerStep_cases h with ⟨-, hw, sys, -, rfl⟩ | ⟨-, hw, -, rfl⟩ | ⟨hw, sys, -, rfl⟩ |
    ⟨hw, -, rfl⟩ | ⟨hw, p, -, rfl⟩ | ⟨p, hw, rfl⟩ | ⟨hw, rfl⟩ | ⟨hw, rfl⟩
  · exact hc.of_idle rfl rfl (by rw [hw]; rfl) (by simp [hw]) (by simp)
  · exact hc.of_idle rfl rfl (by rw [hw]; rfl) (by simp [hw]) (by simp)
  · exact hc.of_idle rfl rfl (by rw [hw]) (by simp [hw]) (by simp)
  · exact hc.of_idle rfl rfl (by rw [hw]; rfl) (by simp [hw]) (by simp)
  · exact hc.of_idle rfl rfl (by rw [hw]; rfl) (by simp [hw]) (by simp)
  · -- the point is stored, and its count is now due
    obtain ⟨n, o, hn, hns, ho, hon⟩ := hc.counted
    simp only [publishLag, hw] at hon
    rw [hw] at hns
    refine ⟨⟨n, o, hn, ?_, ho, hon⟩, fun _ => hc.outside (by simp [hw])⟩
    rw [List.length_append, List.length_singleton, ← hns]
    rfl
  · -- it is counted, and so is now the publish
    obtain ⟨n, o, hn, hns, ho, hon⟩ := hc.counted
    have hcounted : s.counted = false := hc.outside (by simp [hw])
    simp only [publishLag, hw] at hon
    rw [hw] at hns
    refine ⟨⟨n + 1, o, ?_, hns, ho, ?_⟩, fun hne => absurd rfl hne⟩
    · show s.pipe.processed_points + 1 = _
      rw [ofNat_succ, hn]
    · simp only [publishLag, hcounted, ← hon]
      rfl
  · exfalso
    cases a with
    | body => exact ha rfl
    | _ => simp [EdgeFlow.workerStep, hw] at h

/-- The end of the body comes after the publish has been counted. -/
theorem WorkerCount.body {s : MeteredPipeline V} (hc : WorkerCount s) {pipe : Pipeline V}
    (hcounted : s.counted = true) (h : EdgeFlow.workerStep cfg s.pipe .body = some pipe) :
    WorkerCount { s with pipe := pipe, counted := false } := by
  cases hw : s.pipe.worker with
  | body =>
    simp only [EdgeFlow.workerStep, hw, Option.some.injEq] at h
    subst h
    obtain ⟨n, o, hn, hns, ho, hon⟩ := hc.counted
    simp only [publishLag, hw, hcounted, if_true] at hon
    rw [hw] at hns
    exact ⟨⟨n, o, hn, hns, ho, hon⟩, fun _ => rfl⟩
  | _ => simp [EdgeFlow.workerStep, hw] at h

/-- The publish is counted as a success or as a failure. -/
theorem WorkerCount.publish {s s' : MeteredPipeline V} (hc : WorkerCount s) {ok : Bool}
    (h : meteredStep cfg s (.publish ok) = some s') : WorkerCount s' ∧ s'.pipe = s.pipe := by
  cases hw : s.pipe.worker with
  | body =>
    simp only [meteredStep, hw, Option.ite_none_left_eq_some] at h
    obtain ⟨hcounted, h⟩ := h
    obtain ⟨n, o, hn, hns, ho, hon⟩ := hc.counted
    simp only [publishLag, hw, if_neg hcounted] at hon
    cases ok with
    | true =>
      simp only [if_true, Option.some.injEq] at h
      subst h
      refine ⟨⟨⟨n, o + 1, hn, hns, ?_, ?_⟩, fun hne => absurd hw hne⟩, rfl⟩
      · show s.mqtt_publish_ok + 1 + s.mqtt_publish_fail = _
        rw [ofNat_succ, ← ho, UInt64.add_assoc, UInt64.add_comm 1, ← UInt64.add_assoc]
      · simpa only [publishLag, hw, if_true] using hon
    | false =>
      simp only [Bool.false_eq_true, if_false, Option.some.injEq] at h
      subst h
      refine ⟨⟨⟨n, o + 1, hn, hns, ?_, ?_⟩, fun hne => absurd hw hne⟩, rfl⟩
      · show s.mqtt_publish_ok + (s.mqtt_publish_fail + 1) = _
        rw [ofNat_succ, ← ho, UInt64.add_assoc]
      · simpa only [publishLag, hw, if_true] using hon
  | _ => simp [meteredStep, hw] at h

end

/-! ## All threads -/

structure CountInv [CDouble V] (cfg : GatewayConfig V) (size : Nat) (s : MeteredPipeline V) :
    Prop where
  pipe : PipeInv cfg size s.pipe
  ingress : IngressCount s.pipe
  worker : WorkerCount s

theorem IngressCount.frame {s s' : Pipeline V} (hc : IngressCount s)
    (hd : s'.sys.ring.dropped = s'.sys.fulls.length % 2 ^ 32)
    (hacc : s'.sys.accepted = s.sys.accepted) (hingress : s'.ingress = s.ingress)
    (hpoints : s'.ingress_points = s.ingress_points) : IngressCount s' := by
  obtain ⟨i, hi, hlag⟩ := hc.counted
  refine ⟨hd, i, hpoints.trans hi, ?_⟩
  rw [hingress, hacc]
  exact hlag

section
variable [CDouble V] {cfg : GatewayConfig V} {size : Nat}

theorem IngressCount.workerStep {s s' : Pipeline V} {a : WorkerAct} (hc : IngressCount s)
    (h : workerStep cfg s a = some s') : IngressCount s' := by
  rcases workerStep_cases h with ⟨-, -, sys, hsys, rfl⟩ | ⟨-, -, -, rfl⟩ | ⟨-, sys, hsys, rfl⟩ |
    ⟨-, -, rfl⟩ | ⟨-, p, -, rfl⟩ | ⟨p, -, rfl⟩ | ⟨-, rfl⟩ | ⟨-, rfl⟩
  · obtain ⟨hd, hacc⟩ := ringStep_counts hsys hc.dropped
    exact hc.frame hd (hacc (by simp)) rfl rfl
  · exact hc.frame hc.dropped rfl rfl rfl
  · obtain ⟨hd, hacc⟩ := ringStep_counts (a := .pop) hsys hc.dropped
    exact hc.frame hd (hacc (by simp)) rfl rfl
  all_goals exact hc.frame hc.dropped rfl rfl rfl

/-- **Every step of every thread keeps the counters in line.** -/
theorem CountInv.step (hsize : 2 ≤ size) (hlt : size < 2 ^ 32) (s : MeteredPipeline V)
    (a : MeteredAct V) (s' : MeteredPipeline V) (hi : CountInv cfg size s)
    (h : meteredStep cfg s a = some s') : CountInv cfg size s' := by
  cases a with
  | publish ok =>
    obtain ⟨hworker, hpipe⟩ := hi.worker.publish h
    refine ⟨?_, ?_, hworker⟩
    · rw [hpipe]
      exact hi.pipe
    · rw [hpipe]
      exact hi.ingress
  | pipe a =>
    cases a with
    | ingress a =>
      obtain ⟨pipe, hpipe, rfl⟩ := Option.map_eq_some_iff.mp h
      refine ⟨PipeInv.step hsize hlt s.pipe (.ingress a) pipe hi.pipe hpipe,
        hi.ingress.ingressStep hpipe, ?_⟩
      rcases (ingressStep_cases hpipe).2 with ⟨_, _, rfl, -⟩ | ⟨_, _, _, -, -, rfl, -, -⟩
      · exact hi.worker.frame rfl rfl rfl
      · exact hi.worker.frame rfl rfl rfl
    | stop a =>
      obtain ⟨pipe, hpipe, rfl⟩ := Option.map_eq_some_iff.mp h
      refine ⟨PipeInv.step hsize hlt s.pipe (.stop a) pipe hi.pipe hpipe, ?_, ?_⟩
      · obtain ⟨_, _, rfl⟩ := stopStep_fields hpipe
        exact hi.ingress.frame hi.ingress.dropped rfl rfl rfl
      · obtain ⟨_, _, rfl⟩ := stopStep_fields hpipe
        exact hi.worker.frame rfl rfl rfl
    | worker a =>
      -- the rest of the loop's body waits for the publish to be counted
      by_cases hbody : a = .body
      · subst hbody
        simp only [meteredStep, Option.ite_none_right_eq_some] at h
        obtain ⟨hcounted, h⟩ := h
        obtain ⟨pipe, hpipe, rfl⟩ := Option.map_eq_some_iff.mp h
        exact ⟨PipeInv.step hsize hlt s.pipe (.worker .body) pipe hi.pipe hpipe,
          hi.ingress.workerStep hpipe, hi.worker.body hcounted hpipe⟩
      · have hstep : (EdgeFlow.workerStep cfg s.pipe a).map
            (fun pipe => { s with pipe := pipe }) = some s' := by
          cases a with
          | body => exact absurd rfl hbody
          | _ => exact h
        obtain ⟨pipe, hpipe, rfl⟩ := Option.map_eq_some_iff.mp hstep
        exact ⟨PipeInv.step hsize hlt s.pipe (.worker a) pipe hi.pipe hpipe,
          hi.ingress.workerStep hpipe, hi.worker.workerStep hbody hpipe⟩

/-! ## What the counters say -/

theorem CountInv.foundFull {s : MeteredPipeline V} (hi : CountInv cfg size s) :
    ∃ d, s.pipe.sys.ring.dropped = d % 2 ^ 32 ∧
      (d = foundFull s.pipe.sys ∨ d + 1 = Proof.foundFull s.pipe.sys) := by
  refine ⟨_, hi.ingress.dropped, ?_⟩
  unfold Proof.foundFull
  split
  · split_ifs
    · exact .inr rfl
    · exact .inl rfl
  · exact .inl rfl

theorem returning_length_le {α : Type} (s : RingSys α) : (returning s).length ≤ 1 := by
  unfold returning
  split
  · exact Nat.le_refl 1
  · exact Nat.zero_le 1

/-- The push that has taken effect and the push that has returned are not both outstanding. -/
theorem CountInv.ingress_points {s : MeteredPipeline V} (hi : CountInv cfg size s) :
    ∃ i, s.pipe.ingress_points = UInt64.ofNat i ∧
      (i = s.pipe.sys.pushed.length ∨ i + 1 = s.pipe.sys.pushed.length) := by
  obtain ⟨i, hpoints, hlag⟩ := hi.ingress.counted
  have hlength : s.pipe.sys.pushed.length =
      s.pipe.sys.accepted.length + (returning s.pipe.sys).length := by
    rw [hi.pipe.ring.accepted, List.length_append]
  have hle := returning_length_le s.pipe.sys
  refine ⟨i, hpoints, ?_⟩
  cases hpc : s.pipe.ingress with
  | pushed rest =>
    have hidle : s.pipe.sys.prod = .idle := hi.pipe.idleProd (by simp [hpc])
    have hreturning : returning s.pipe.sys = [] := by simp [returning, hidle]
    rw [hpc] at hlag
    rw [hreturning, List.length_nil, Nat.add_zero, ← hlag] at hlength
    exact .inr hlength.symm
  | _ =>
    rw [hpc] at hlag
    simp only [pushLag, Nat.add_zero] at hlag
    omega

/-- Nor are the point that has been popped and the point that has been stored. -/
theorem CountInv.processed_points {s : MeteredPipeline V} (hi : CountInv cfg size s) :
    ∃ p o, s.pipe.processed_points = UInt64.ofNat p ∧
      (p = s.pipe.sys.popped.length ∨ p + 1 = s.pipe.sys.popped.length) ∧
      s.mqtt_publish_ok + s.mqtt_publish_fail = UInt64.ofNat o ∧ (o = p ∨ o + 1 = p) := by
  obtain ⟨p, o, hp, hps, ho, hop⟩ := hi.worker.counted
  have hlength : s.pipe.sys.popped.length = s.pipe.stored.length + (inFlight s.pipe).length := by
    have h := congrArg List.length hi.pipe.stored
    rwa [List.length_append, List.length_map, List.length_map] at h
  refine ⟨p, o, hp, ?_, ho, ?_⟩
  · cases hw : s.pipe.worker with
    | popping =>
      have hle : (returned s.pipe.sys).length ≤ 1 := by
        unfold returned
        split
        · exact Nat.le_refl 1
        · exact Nat.zero_le 1
      simp only [inFlight, hw] at hlength
      simp only [storeLag, hw] at hps
      omega
    | _ =>
      simp only [inFlight, hw, List.length_nil, List.length_singleton] at hlength
      simp only [storeLag, hw] at hps
      omega
  · unfold publishLag at hop
    split at hop
    · split_ifs at hop
      · exact .inl hop
      · exact .inr hop
    · exact .inl hop

end

/-- **The counters account for every point.** In every state the three threads can reach, on a
    ring of any size: the values pushed are those popped and those in the ring; `dropped` is the
    number of pushes that found it full, or one behind; `ingress_points` the number of pushes,
    `processed_points` the number of pops and the two publish counters together
    `processed_points`, each exact or one behind; so `processed_points` is at most one ahead of
    `ingress_points`. The counters are `uint32_t` and `uint64_t`, so their equations are modulo
    their widths; the last one is also given for the numbers read, as long as fewer than `2^64`
    points have gone in. -/
theorem counters_account_for_points [CDouble V] (cfg : GatewayConfig V) (size : UInt32)
    (zero : Telemetry V) (ring : SpscRing (Telemetry V))
    (hinit : spscRingInit size.toNat zero = some ring) (acts : List (MeteredAct V))
    (s : MeteredPipeline V) (hrun : run (meteredStep cfg) (meteredStart ring) acts = some s) :
    let A := s.pipe.sys.pushed.length
    let B := foundFull s.pipe.sys
    let Q := s.pipe.sys.popped.length
    let L := spscRingCount s.pipe.sys.ring
    A = Q + L ∧
    (∃ d, s.pipe.sys.ring.dropped = d % 2 ^ 32 ∧ (d = B ∨ d + 1 = B)) ∧
    (∃ i p o,
      s.pipe.ingress_points = UInt64.ofNat i ∧ (i = A ∨ i + 1 = A) ∧
      s.pipe.processed_points = UInt64.ofNat p ∧ (p = Q ∨ p + 1 = Q) ∧
      s.mqtt_publish_ok + s.mqtt_publish_fail = UInt64.ofNat o ∧ (o = p ∨ o + 1 = p) ∧
      p ≤ i + 1) ∧
    (A < 2 ^ 64 → s.pipe.processed_points.toNat ≤ s.pipe.ingress_points.toNat + 1) := by
  intro A B Q L
  have hsize : 2 ≤ size.toNat := by
    unfold spscRingInit at hinit
    split at hinit
    · cases hinit
    · omega
  have hlt : size.toNat < 2 ^ 32 := size.toNat_lt
  have hi : CountInv cfg size.toNat s := by
    refine run_inv (CountInv.step hsize hlt) ?_ hrun
    refine ⟨pipeInv_start hinit, ⟨?_, 0, rfl, rfl⟩, ⟨⟨0, 0, rfl, rfl, rfl, rfl⟩, fun _ => rfl⟩⟩
    unfold spscRingInit at hinit
    split at hinit
    · cases hinit
    · cases hinit
      rfl
  obtain ⟨_, hcount, _⟩ := hi.pipe.ring.counts
  have hL : L = s.pipe.sys.queue.length := hi.pipe.ring.count hsize hlt
  obtain ⟨i, hpoints, hiA⟩ := hi.ingress_points
  obtain ⟨p, o, hprocessed, hpQ, ho, hop⟩ := hi.processed_points
  have hAQ : A = Q + L := by rw [hL]; exact hcount
  have hle : p ≤ i + 1 := by omega
  refine ⟨hAQ, hi.foundFull, ⟨i, p, o, hpoints, hiA, hprocessed, hpQ, ho, hop, hle⟩, ?_⟩
  intro hA
  rw [hpoints, hprocessed, UInt64.toNat_ofNat_of_lt' (Nat.lt_of_le_of_lt (by omega) hA),
    UInt64.toNat_ofNat_of_lt' (Nat.lt_of_le_of_lt (by omega) hA)]
  exact hle

/-- A point is pushed, popped, stored and published before the ingress thread gets to count it:
    `processed_points` is one ahead. -/
def overtakenRun : List (MeteredAct ℚ) :=
  (pushOne.take 8 ++ storeOne.take 8).map .pipe ++ [.publish true]

theorem counters_account_for_points_overtaken :
    ∃ s, run (meteredStep (gatewayConfigDefaults ℚ)) (meteredStart twoSlots) overtakenRun =
        some s ∧
      s.pipe.ingress_points = 0 ∧ s.pipe.processed_points = 1 ∧
      s.pipe.sys.pushed.length = s.pipe.sys.popped.length + spscRingCount s.pipe.sys.ring := by
  have hend : (run (meteredStep (gatewayConfigDefaults ℚ)) (meteredStart twoSlots)
      overtakenRun).map (fun s => (s.pipe.ingress_points, s.pipe.processed_points)) =
        some (0, 1) := by
    decide +kernel
  obtain ⟨s, hrun, he⟩ := Option.map_eq_some_iff.mp hend
  obtain ⟨hingress, hprocessed⟩ := Prod.mk.inj he
  exact ⟨s, hrun, hingress, hprocessed, (counters_account_for_points (gatewayConfigDefaults ℚ) 2
    onePoint twoSlots rfl overtakenRun s hrun).1⟩

end Proof
end EdgeFlow
