import EdgeFlow.Proof.RingFifo
import EdgeFlow.Runtime.Pipeline

/-!
# What a stop loses

The worker leaves its loop as soon as it reads `running = false`, whatever is still in the ring,
and the ingress thread may push on until it reads the flag itself. So the points that were
accepted and never stored are exactly the ones in the ring when both threads have been joined.

`NoLoss` says the same of the steps: the worker must not leave while the ring holds a point, and
no push may take effect once it has left. A run is without loss **if and only if** all its steps
are: a point left behind stays where it is, because the only thread that would take it out is
gone.
-/

set_option autoImplicit false

namespace EdgeFlow
namespace Proof

open Lib

variable {V : Type}

/-- The points popped from the ring and not yet passed to the store. -/
def inFlight (s : Pipeline V) : List (Telemetry V) :=
  match s.worker with
  | .popping => returned s.sys
  | .append p => [p]
  | _ => []

/-- The worker does not leave its loop while the ring holds a point, and no push takes effect
    after it has left. -/
def NoLoss (s : Pipeline V) : PipeAct V → Prop
  | .worker .check => s.worker = .check → s.running = false → s.sys.queue = []
  | .ingress .push => s.worker = .done → ∀ v next, s.sys.prod ≠ .wrote v next
  | _ => True

/-- A point is in the ring and the worker is gone. -/
def Lost (s : Pipeline V) : Prop := s.worker = .done ∧ s.sys.queue ≠ []

/-! ## What a step can do -/

/-- What a step of `ingress_main` can do: move on outside a push, or take a step of one. -/
theorem ingressStep_cases {s s' : Pipeline V} {a : IngressAct V} (h : ingressStep s a = some s') :
    s.ingress ≠ .done ∧
    ((∃ pc n, s' = { s with ingress := pc, ingress_points := n } ∧
        ∀ rest, s.ingress ≠ .pushing rest) ∨
      ∃ ra sys pc, isProducer ra = true ∧ ringStep s.sys ra = some sys ∧
        s' = { s with sys := sys, ingress := pc } ∧ (ra = .push → a = .push) ∧
        ((∃ rest, pc = .pushing rest) ∨ sys.prod = .idle)) := by
  cases a with
  | check =>
    cases hpc : s.ingress with
    | check =>
      simp only [ingressStep, hpc, Option.some.injEq] at h
      exact ⟨by simp, Or.inl ⟨_, s.ingress_points, h.symm, by simp⟩⟩
    | _ => simp [ingressStep, hpc] at h
  | poll points =>
    cases hpc : s.ingress with
    | poll =>
      simp only [ingressStep, hpc, Option.ite_none_right_eq_some, Option.some.injEq] at h
      exact ⟨by simp, Or.inl ⟨_, s.ingress_points, h.2.symm, by simp⟩⟩
    | _ => simp [ingressStep, hpc] at h
  | nextPoint =>
    cases hpc : s.ingress with
    | points rest =>
      cases rest with
      | nil =>
        simp only [ingressStep, hpc, Option.some.injEq] at h
        exact ⟨by simp, Or.inl ⟨_, s.ingress_points, h.symm, by simp⟩⟩
      | cons p rest =>
        simp only [ingressStep, hpc] at h
        obtain ⟨sys, hsys, rfl⟩ := Option.map_eq_some_iff.mp h
        exact ⟨by simp, Or.inr ⟨.callPush p, sys, _, rfl, hsys, rfl, by simp, Or.inl ⟨rest, rfl⟩⟩⟩
    | _ => simp [ingressStep, hpc] at h
  | push =>
    cases hpc : s.ingress with
    | pushing rest =>
      simp only [ingressStep, hpc] at h
      obtain ⟨sys, hsys, rfl⟩ := Option.map_eq_some_iff.mp h
      exact ⟨by simp, Or.inr ⟨.push, sys, _, rfl, hsys, rfl, fun _ => rfl, Or.inl ⟨rest, rfl⟩⟩⟩
    | _ => simp [ingressStep, hpc] at h
  | pushReturn =>
    cases hpc : s.ingress with
    | pushing rest =>
      cases hprod : s.sys.prod with
      | ret v ok =>
        simp only [ingressStep, hpc, hprod] at h
        obtain ⟨sys, hsys, rfl⟩ := Option.map_eq_some_iff.mp h
        have hidle : sys.prod = .idle := by
          simp only [ringStep, hprod, Option.some.injEq] at hsys
          rw [← hsys]
        exact ⟨by simp, Or.inr ⟨.retPush, sys, _, rfl, hsys, rfl, by simp, Or.inr hidle⟩⟩
      | _ => simp [ingressStep, hpc, hprod] at h
    | _ => simp [ingressStep, hpc] at h
  | count =>
    cases hpc : s.ingress with
    | pushed rest =>
      simp only [ingressStep, hpc, Option.some.injEq] at h
      exact ⟨by simp, Or.inl ⟨_, _, h.symm, by simp⟩⟩
    | _ => simp [ingressStep, hpc] at h

/-- The ingress thread leaves the worker where it is and takes nothing out of the ring. -/
theorem ingressStep_frame {s s' : Pipeline V} {a : IngressAct V} (h : ingressStep s a = some s') :
    s'.worker = s.worker ∧ s'.sys.popped = s.sys.popped ∧
      (s'.sys.pushed = s.sys.pushed ∨ a = .push ∧ ∃ v next, s.sys.prod = .wrote v next ∧
        s'.sys.pushed = s.sys.pushed ++ [v]) := by
  obtain ⟨-, hcases⟩ := ingressStep_cases h
  rcases hcases with ⟨pc, n, rfl, -⟩ | ⟨ra, sys, pc, ha, hsys, rfl, hpush, -⟩
  · exact ⟨rfl, rfl, Or.inl rfl⟩
  · obtain ⟨-, hp, hw⟩ := producer_frame ha hsys
    exact ⟨rfl, hp, hw.imp_right fun ⟨hra, hw⟩ => ⟨hpush hra, hw⟩⟩

/-- The push that stores `head` puts its value in. -/
theorem push_stores {s s' : Pipeline V} {v : Telemetry V} {next : Nat}
    (h : ingressStep s .push = some s') (hprod : s.sys.prod = .wrote v next) :
    s'.sys.pushed = s.sys.pushed ++ [v] := by
  cases hpc : s.ingress with
  | pushing rest =>
    simp only [ingressStep, hpc, ringStep, pushStep, hprod, Option.map_some, Option.some.injEq] at h
    subst h
    exact enqs_snoc_enq s.sys.trace v
  | _ => simp [ingressStep, hpc] at h

/-- `gateway_app_stop` writes the flag and its own program counter. -/
theorem stopStep_fields {s s' : Pipeline V} {a : StopAct} (h : stopStep s a = some s') :
    ∃ running stop, s' = { s with running := running, stop := stop } := by
  cases a with
  | clearRunning =>
    simp only [stopStep] at h
    split at h
    · cases h
      exact ⟨_, _, rfl⟩
    · cases h
  | joinIngress =>
    simp only [stopStep] at h
    split at h
    · cases h
      exact ⟨_, _, rfl⟩
    · cases h
  | joinWorker =>
    simp only [stopStep] at h
    split at h
    · cases h
      exact ⟨_, _, rfl⟩
    · cases h

theorem stopStep_frame {s s' : Pipeline V} {a : StopAct} (h : stopStep s a = some s') :
    s'.worker = s.worker ∧ s'.sys = s.sys := by
  obtain ⟨_, _, rfl⟩ := stopStep_fields h
  exact ⟨rfl, rfl⟩

section
variable [CDouble V] {cfg : GatewayConfig V}

/-- What a step of `worker_main` can do. -/
theorem workerStep_cases {s s' : Pipeline V} {a : WorkerAct} (h : workerStep cfg s a = some s') :
    (a = .check ∧ s.worker = .check ∧ ∃ sys, ringStep s.sys .callPop = some sys ∧
      s' = { s with sys := sys, worker := .popping }) ∨
    (a = .check ∧ s.worker = .check ∧ s.running = false ∧ s' = { s with worker := .done }) ∨
    (s.worker = .popping ∧ ∃ sys, popStep s.sys = some sys ∧
      s' = { s with sys := sys, worker := .popping }) ∨
    (s.worker = .popping ∧ s.sys.cons = .ret none ∧
      s' = { s with sys := { s.sys with cons := .idle }, worker := .check }) ∨
    (s.worker = .popping ∧ ∃ p, s.sys.cons = .ret (some p) ∧
      s' = { s with sys := { s.sys with cons := .idle }, worker := .append p }) ∨
    (∃ p, s.worker = .append p ∧
      s' = { s with worker := .count, stored := s.stored ++ [applyQualityRules cfg p] }) ∨
    (s.worker = .count ∧
      s' = { s with worker := .body, processed_points := s.processed_points + 1 }) ∨
    (s.worker = .body ∧ s' = { s with worker := .check }) := by
  cases a with
  | check =>
    cases hpc : s.worker with
    | check =>
      simp only [workerStep, hpc] at h
      split at h
      · obtain ⟨sys, hsys, rfl⟩ := Option.map_eq_some_iff.mp h
        exact Or.inl ⟨rfl, rfl, sys, hsys, rfl⟩
      · rename_i hr
        cases h
        exact Or.inr (Or.inl ⟨rfl, rfl, by simpa using hr, rfl⟩)
    | _ => simp [workerStep, hpc] at h
  | pop =>
    cases hpc : s.worker with
    | popping =>
      simp only [workerStep, hpc] at h
      obtain ⟨sys, hsys, rfl⟩ := Option.map_eq_some_iff.mp h
      exact Or.inr (Or.inr (Or.inl ⟨rfl, sys, hsys, rfl⟩))
    | _ => simp [workerStep, hpc] at h
  | popReturn =>
    cases hpc : s.worker with
    | popping =>
      cases hcons : s.sys.cons with
      | ret v =>
        simp only [workerStep, hpc, hcons, ringStep, Option.map_some, Option.some.injEq] at h
        subst h
        cases v with
        | none => exact Or.inr (Or.inr (Or.inr (Or.inl ⟨rfl, rfl, rfl⟩)))
        | some p => exact Or.inr (Or.inr (Or.inr (Or.inr (Or.inl ⟨rfl, p, rfl, rfl⟩))))
      | _ => simp [workerStep, hpc, hcons] at h
    | _ => simp [workerStep, hpc] at h
  | append =>
    cases hpc : s.worker with
    | append p =>
      simp only [workerStep, hpc, Option.some.injEq] at h
      exact Or.inr (Or.inr (Or.inr (Or.inr (Or.inr (Or.inl ⟨p, rfl, h.symm⟩)))))
    | _ => simp [workerStep, hpc] at h
  | count =>
    cases hpc : s.worker with
    | count =>
      simp only [workerStep, hpc, Option.some.injEq] at h
      exact Or.inr (Or.inr (Or.inr (Or.inr (Or.inr (Or.inr (Or.inl ⟨rfl, h.symm⟩))))))
    | _ => simp [workerStep, hpc] at h
  | body =>
    cases hpc : s.worker with
    | body =>
      simp only [workerStep, hpc, Option.some.injEq] at h
      exact Or.inr (Or.inr (Or.inr (Or.inr (Or.inr (Or.inr (Or.inr ⟨rfl, h.symm⟩))))))
    | _ => simp [workerStep, hpc] at h

theorem workerStep_done {s s' : Pipeline V} {a : WorkerAct} (h : workerStep cfg s a = some s') :
    s.worker ≠ .done := by
  intro hw
  cases a <;> simp [workerStep, hw] at h

/-- The worker is done only after reading `running = false`. -/
theorem workerStep_leaves {s s' : Pipeline V} {a : WorkerAct} (h : workerStep cfg s a = some s')
    (hd : s'.worker = .done) :
    a = .check ∧ s.worker = .check ∧ s.running = false ∧ s'.sys = s.sys := by
  rcases workerStep_cases h with ⟨-, -, sys, -, rfl⟩ | ⟨ha, hw, hr, rfl⟩ | ⟨-, sys, -, rfl⟩ |
    ⟨-, -, rfl⟩ | ⟨-, p, -, rfl⟩ | ⟨p, -, rfl⟩ | ⟨-, rfl⟩ | ⟨-, rfl⟩
  · cases hd
  · exact ⟨ha, hw, hr, rfl⟩
  all_goals cases hd

end

/-! ## The invariant -/

variable [CDouble V]

structure PipeInv (cfg : GatewayConfig V) (size : Nat) (s : Pipeline V) : Prop where
  ring : RingInv size s.sys
  stored : s.sys.popped.map (applyQualityRules cfg) =
    s.stored ++ (inFlight s).map (applyQualityRules cfg)
  idleProd : (∀ rest, s.ingress ≠ .pushing rest) → s.sys.prod = .idle
  idleCons : s.worker ≠ .popping → s.sys.cons = .idle
  joined : s.stop = .joinWorker ∨ s.stop = .joined → s.ingress = .done
  workerJoined : s.stop = .joined → s.worker = .done

section
variable {cfg : GatewayConfig V} {size : Nat}

theorem pipeInv_start {ring : SpscRing (Telemetry V)} {zero : Telemetry V}
    (h : spscRingInit size zero = some ring) : PipeInv cfg size (pipelineStart ring) where
  ring := ringInv_init h
  stored := rfl
  idleProd _ := rfl
  idleCons _ := rfl
  joined h := by simp [pipelineStart] at h
  workerJoined h := by simp [pipelineStart] at h

theorem PipeInv.ingressStep {s s' : Pipeline V} {a : IngressAct V} (hsize : 2 ≤ size)
    (hlt : size < 2 ^ 32) (hi : PipeInv cfg size s) (h : ingressStep s a = some s') :
    PipeInv cfg size s' := by
  obtain ⟨hnd, hcases⟩ := ingressStep_cases h
  have hnj : ¬(s.stop = .joinWorker ∨ s.stop = .joined) := fun hj => hnd (hi.joined hj)
  rcases hcases with ⟨pc, n, rfl, hnp⟩ | ⟨ra, sys, pc, ha, hsys, rfl, -, hidle⟩
  · exact { hi with idleProd := fun _ => hi.idleProd hnp, joined := fun hj => absurd hj hnj }
  · obtain ⟨hc, hp, -⟩ := producer_frame ha hsys
    refine ⟨RingInv.step hsize hlt _ _ _ hi.ring hsys, ?_, fun hn => ?_,
      fun hw => hc.trans (hi.idleCons hw), fun hj => absurd hj hnj, hi.workerJoined⟩
    · show sys.popped.map _ = _
      rw [hp, hi.stored]
      simp only [inFlight, returned, hc]
    · rcases hidle with ⟨rest, hpc⟩ | hidle
      · exact absurd hpc (hn rest)
      · exact hidle

theorem PipeInv.workerStep {s s' : Pipeline V} {a : WorkerAct} (hsize : 2 ≤ size)
    (hlt : size < 2 ^ 32) (hi : PipeInv cfg size s) (h : workerStep cfg s a = some s') :
    PipeInv cfg size s' := by
  have hst := hi.stored
  -- a joined worker takes no step
  have hnj : s.stop ≠ .joined := fun hj => workerStep_done h (hi.workerJoined hj)
  rcases workerStep_cases h with ⟨-, hw, sys, hsys, rfl⟩ | ⟨-, hw, -, rfl⟩ | ⟨hw, sys, hsys, rfl⟩ |
    ⟨hw, hcons, rfl⟩ | ⟨hw, p, hcons, rfl⟩ | ⟨p, hw, rfl⟩ | ⟨hw, rfl⟩ | ⟨hw, rfl⟩
  · have hr := RingInv.step hsize hlt _ _ _ hi.ring hsys
    simp only [ringStep, hi.idleCons (by simp [hw]), Option.some.injEq] at hsys
    subst hsys
    simp only [inFlight, hw] at hst
    exact { hi with ring := hr, stored := hst, idleCons := fun hn => absurd rfl hn
                    workerJoined := fun hj => absurd hj hnj }
  · simp only [inFlight, hw] at hst
    exact { hi with stored := hst, idleCons := fun _ => hi.idleCons (by simp [hw])
                    workerJoined := fun _ => rfl }
  · obtain ⟨hprod, -, hpop⟩ := popStep_frame hsys
    simp only [inFlight, hw, returned_of_popStep hsys, List.map_nil, List.append_nil] at hst
    refine { hi with ring := hi.ring.popStep hsize hlt hsys, stored := ?_
                     idleProd := fun hn => hprod.trans (hi.idleProd hn)
                     idleCons := fun hn => absurd rfl hn
                     workerJoined := fun hj => absurd hj hnj }
    show sys.popped.map _ = s.stored ++ (returned sys).map _
    rw [hpop, List.map_append, hst]
  · simp only [inFlight, hw, returned, hcons] at hst
    exact { hi with ring := { hi.ring with cons := trivial }, stored := hst
                    idleCons := fun _ => rfl, workerJoined := fun hj => absurd hj hnj }
  · simp only [inFlight, hw, returned, hcons] at hst
    exact { hi with ring := { hi.ring with cons := trivial }, stored := hst
                    idleCons := fun _ => rfl, workerJoined := fun hj => absurd hj hnj }
  · simp only [inFlight, hw] at hst
    exact { hi with stored := hst.trans (List.append_nil _).symm
                    idleCons := fun _ => hi.idleCons (by simp [hw])
                    workerJoined := fun hj => absurd hj hnj }
  · simp only [inFlight, hw] at hst
    exact { hi with stored := hst, idleCons := fun _ => hi.idleCons (by simp [hw])
                    workerJoined := fun hj => absurd hj hnj }
  · simp only [inFlight, hw] at hst
    exact { hi with stored := hst, idleCons := fun _ => hi.idleCons (by simp [hw])
                    workerJoined := fun hj => absurd hj hnj }

theorem PipeInv.stopStep {s s' : Pipeline V} {a : StopAct} (hi : PipeInv cfg size s)
    (h : stopStep s a = some s') : PipeInv cfg size s' := by
  cases a with
  | clearRunning =>
    cases hpc : s.stop with
    | notCalled =>
      simp only [EdgeFlow.stopStep, hpc, Option.some.injEq] at h
      subst h
      exact { hi with joined := by simp, workerJoined := by simp }
    | _ => simp [EdgeFlow.stopStep, hpc] at h
  | joinIngress =>
    cases hpc : s.stop with
    | joinIngress =>
      cases hin : s.ingress with
      | done =>
        simp only [EdgeFlow.stopStep, hpc, hin, Option.some.injEq] at h
        subst h
        exact { hi with idleProd := fun _ => hi.idleProd (by simp [hin])
                        joined := fun _ => rfl
                        workerJoined := by simp }
      | _ => simp [EdgeFlow.stopStep, hpc, hin] at h
    | _ => simp [EdgeFlow.stopStep, hpc] at h
  | joinWorker =>
    cases hpc : s.stop with
    | joinWorker =>
      cases hw : s.worker with
      | done =>
        simp only [EdgeFlow.stopStep, hpc, hw, Option.some.injEq] at h
        subst h
        have hst := hi.stored
        simp only [inFlight, hw] at hst
        exact { hi with stored := hst
                        idleCons := fun _ => hi.idleCons (by simp [hw])
                        joined := fun _ => hi.joined (Or.inl hpc)
                        workerJoined := fun _ => rfl }
      | _ => simp [EdgeFlow.stopStep, hpc, hw] at h
    | _ => simp [EdgeFlow.stopStep, hpc] at h

/-- **Every step of the pipeline keeps the invariant.** -/
theorem PipeInv.step (hsize : 2 ≤ size) (hlt : size < 2 ^ 32) (s : Pipeline V) (a : PipeAct V)
    (s' : Pipeline V) (hi : PipeInv cfg size s) (h : pipeStep cfg s a = some s') :
    PipeInv cfg size s' := by
  cases a with
  | ingress a => exact hi.ingressStep hsize hlt h
  | worker a => exact hi.workerStep hsize hlt h
  | stop a => exact hi.stopStep h

/-- When both threads have been joined, what was accepted is what was stored and what is still in
    the ring. -/
theorem PipeInv.at_join {s : Pipeline V} (hi : PipeInv cfg size s) (hj : s.stop = .joined) :
    s.worker = .done ∧ s.sys.accepted.map (applyQualityRules cfg) =
      s.stored ++ s.sys.queue.map (applyQualityRules cfg) := by
  have hw := hi.workerJoined hj
  have hprod := hi.idleProd (by simp [hi.joined (Or.inr hj)])
  have hacc := hi.ring.accepted
  have hst := hi.stored
  obtain ⟨hcat, -⟩ := hi.ring.counts
  simp only [returning, hprod, List.append_nil] at hacc
  simp only [inFlight, hw, List.map_nil, List.append_nil] at hst
  refine ⟨hw, ?_⟩
  rw [← hacc, hcat, List.map_append, hst]

/-! ## Losing steps -/

/-- **A point left behind stays behind.** -/
theorem Lost.step (s : Pipeline V) (a : PipeAct V) (s' : Pipeline V) (hl : Lost s)
    (h : pipeStep cfg s a = some s') : Lost s' := by
  obtain ⟨hw, hq⟩ := hl
  rw [ne_eq, queue_eq_nil_iff, Nat.not_le] at hq
  cases a with
  | ingress a =>
    obtain ⟨hw', hp, hpush⟩ := ingressStep_frame h
    refine ⟨hw'.trans hw, ?_⟩
    rw [ne_eq, queue_eq_nil_iff, Nat.not_le, hp]
    rcases hpush with hpush | ⟨-, v, next, -, hpush⟩
    · rwa [hpush]
    · rw [hpush, List.length_append]
      exact Nat.lt_add_right _ hq
  | worker a => exact absurd hw (workerStep_done h)
  | stop a =>
    obtain ⟨hw', hsys⟩ := stopStep_frame h
    refine ⟨hw'.trans hw, ?_⟩
    rw [hsys, ne_eq, queue_eq_nil_iff, Nat.not_le]
    exact hq

/-- A step outside `NoLoss` leaves a point behind. -/
theorem lost_of_step (s : Pipeline V) (a : PipeAct V) (s' : Pipeline V) (hi : PipeInv cfg size s)
    (hn : ¬NoLoss s a) (h : pipeStep cfg s a = some s') : Lost s' := by
  obtain ⟨-, hlen, -⟩ := hi.ring.counts
  cases a with
  | ingress a =>
    obtain ⟨hw', hp, hpush⟩ := ingressStep_frame h
    cases a with
    | push =>
      simp only [NoLoss, not_forall, not_not] at hn
      obtain ⟨hw, v, next, hprod⟩ := hn
      refine ⟨hw'.trans hw, ?_⟩
      rw [ne_eq, queue_eq_nil_iff, Nat.not_le, hp, push_stores h hprod, List.length_append,
        List.length_singleton]
      omega
    | _ => exact absurd trivial hn
  | worker a =>
    cases a with
    | check =>
      simp only [NoLoss, not_forall] at hn
      obtain ⟨hw, hr, hq⟩ := hn
      have h : workerStep cfg s .check = some s' := h
      simp only [workerStep, hw, hr, Bool.false_eq_true, if_false, Option.some.injEq] at h
      subst h
      exact ⟨rfl, hq⟩
    | _ => exact absurd trivial hn
  | stop a => exact absurd trivial hn

/-- The ring is empty from the worker's last step on. -/
def Clear (s : Pipeline V) : Prop := s.worker = .done → s.sys.queue = []

theorem Clear.step (s : Pipeline V) (a : PipeAct V) (s' : Pipeline V) (hc : Clear s)
    (hn : NoLoss s a) (h : pipeStep cfg s a = some s') : Clear s' := by
  intro hd
  cases a with
  | ingress a =>
    obtain ⟨hw', hp, hpush⟩ := ingressStep_frame h
    have hw := hw'.symm.trans hd
    have hq := queue_eq_nil_iff.mp (hc hw)
    rw [queue_eq_nil_iff, hp]
    rcases hpush with hpush | ⟨ha, v, next, hprod, -⟩
    · rwa [hpush]
    · subst ha
      exact absurd hprod (hn hw v next)
  | worker a =>
    obtain ⟨ha, hw, hr, hsys⟩ := workerStep_leaves h hd
    subst ha
    rw [hsys]
    exact hn hw hr
  | stop a =>
    obtain ⟨hw', hsys⟩ := stopStep_frame h
    rw [hsys]
    exact hc (hw'.symm.trans hd)

end

/-- **A stop loses nothing exactly if no step of the run loses anything.** When both threads have
    been joined, the points passed to the store are the points whose push returned `true`, after
    the quality rule, if and only if the worker did not leave its loop before the ring was empty
    and no push took effect after that. -/
theorem stop_loses_nothing_iff (cfg : GatewayConfig V) (size : Nat) (hsize : 2 ≤ size)
    (hlt : size < 2 ^ 32) (zero : Telemetry V) (ring : SpscRing (Telemetry V))
    (hinit : spscRingInit size zero = some ring) (acts : List (PipeAct V)) (s : Pipeline V)
    (hrun : run (pipeStep cfg) (pipelineStart ring) acts = some s) (hj : s.stop = .joined) :
    s.stored = s.sys.accepted.map (applyQualityRules cfg) ↔
      Along (pipeStep cfg) NoLoss (pipelineStart ring) acts := by
  have hstart : PipeInv cfg size (pipelineStart ring) := pipeInv_start hinit
  have hi : PipeInv cfg size s := run_inv (PipeInv.step hsize hlt) hstart hrun
  obtain ⟨hw, hacc⟩ := hi.at_join hj
  constructor
  · intro hst
    refine along_of_run (PipeInv.step hsize hlt) lost_of_step Lost.step hstart hrun ?_
    intro hl
    rw [hst, List.self_eq_append_right, List.map_eq_nil_iff] at hacc
    exact hl.2 hacc
  · intro hal
    have hclear : Clear s :=
      run_inv_along Clear.step (fun hd => by simp [pipelineStart] at hd) hal hrun
    rw [hacc, hclear hw, List.map_nil, List.append_nil]

/-! ## Two stops -/

def onePoint : Telemetry ℚ := telemetryInit 1000 (ascii "meter_001") gridPowerKw 100 (ascii "kW") 1

def twoSlots : SpscRing (Telemetry ℚ) := ⟨[onePoint, onePoint], 2, 0, 0, 0⟩

/-- One point is polled and pushed. -/
def pushOne : List (PipeAct ℚ) :=
  [.ingress .check, .ingress (.poll [onePoint]), .ingress .nextPoint, .ingress .push,
    .ingress .push, .ingress .push, .ingress .push, .ingress .pushReturn, .ingress .count,
    .ingress .nextPoint]

/-- The worker pops it and stores it. -/
def storeOne : List (PipeAct ℚ) :=
  [.worker .check, .worker .pop, .worker .pop, .worker .pop, .worker .pop, .worker .popReturn,
    .worker .append, .worker .count, .worker .body]

/-- `gateway_app_stop` to its end. -/
def stopAll : List (PipeAct ℚ) :=
  [.stop .clearRunning, .ingress .check, .stop .joinIngress, .worker .check, .stop .joinWorker]

/-- The worker is stopped after it has stored the point. -/
theorem stop_loses_nothing_iff_stored :
    ∃ s : Pipeline ℚ, run (pipeStep (gatewayConfigDefaults ℚ)) (pipelineStart twoSlots)
        (pushOne ++ storeOne ++ stopAll) = some s ∧ s.stop = .joined ∧
      (s.stored = s.sys.accepted.map (applyQualityRules (gatewayConfigDefaults ℚ)) ↔
        Along (pipeStep (gatewayConfigDefaults ℚ)) NoLoss (pipelineStart twoSlots)
          (pushOne ++ storeOne ++ stopAll)) := by
  have hend : (run (pipeStep (gatewayConfigDefaults ℚ)) (pipelineStart twoSlots)
      (pushOne ++ storeOne ++ stopAll)).map Pipeline.stop = some .joined := by
    decide +kernel
  obtain ⟨s, hrun, hj⟩ := Option.map_eq_some_iff.mp hend
  exact ⟨s, hrun, hj, stop_loses_nothing_iff (gatewayConfigDefaults ℚ) 2 le_rfl (by decide)
    onePoint twoSlots rfl (pushOne ++ storeOne ++ stopAll) s hrun hj⟩

/-- The flag is cleared while the point is in the ring: it was accepted and is never stored. -/
theorem stop_loses_a_point :
    ∃ s : Pipeline ℚ, run (pipeStep (gatewayConfigDefaults ℚ)) (pipelineStart twoSlots)
        (pushOne ++ stopAll) = some s ∧ s.stop = .joined ∧ s.stored = [] ∧
      s.sys.accepted.length = 1 := by
  have hend : (run (pipeStep (gatewayConfigDefaults ℚ)) (pipelineStart twoSlots)
      (pushOne ++ stopAll)).map (fun s => (s.stop, s.stored.length, s.sys.accepted.length)) =
        some (.joined, 0, 1) := by
    decide +kernel
  obtain ⟨s, hrun, he⟩ := Option.map_eq_some_iff.mp hend
  simp only [Prod.mk.injEq, List.length_eq_zero_iff] at he
  exact ⟨s, hrun, he.1, he.2.1, he.2.2⟩

end Proof
end EdgeFlow
