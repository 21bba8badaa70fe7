import EdgeFlow.Proof.Lifecycle

/-!
# Every descriptor closed, every thread joined, every stop completed

`process_custody` is what the book of `Proof/Lifecycle.lean` says about whole runs, down to what
may be left open when `main` returns. `stop_completes` is the other half: from the moment the
`running` flag is cleared for good, whoever is scheduled, a bounded number of steps is left, and a
state before the return can be stuck for one reason only: a call on the MQTT session that does not
return. `main` waits for such a call for ever, since it joins the thread that is in it.
-/

set_option autoImplicit false

namespace EdgeFlow
namespace Lifecycle

open Lib Lib.Custody

/-! ## Every run -/

theorem sane_start : Sane lifeStart := by
  constructor <;> simp [lifeStart, MainPc.coded, MainPc.asked]

theorem mainStep_sane {s s' : Life} {ok : Bool} (h : Sane s) (hs : mainStep s ok = some s') :
    Sane s' := by
  obtain ⟨main, ingress, worker, monitor, running, g_exit_requested, logger, notify, socket,
    log⟩ := s
  obtain ⟨hlogger, hinit, hingress, hworker, hmonitor, hidle, hreactor, hasked, hclosed,
    hcoded⟩ := h
  cases main
  case unwindIngress both =>
    cases both <;> simp only [mainStep] at hs <;> split at hs <;> cases hs <;> constructor
    all_goals first
      | assumption
      | simp_all [Life.did, MainPc.phase, MainPc.before, MainPc.runs, MainPc.coded, MainPc.asked,
          MainPc.code]
  case waitExit =>
    cases g_exit_requested <;> cases hs <;> constructor
    all_goals first
      | assumption
      | simp_all [MainPc.phase, MainPc.before, MainPc.runs, MainPc.coded, MainPc.asked,
          MainPc.code]
  -- one successor, or one for each answer
  all_goals
    simp only [mainStep] at hs
    try split at hs
  all_goals
    cases hs
  all_goals
    constructor
  all_goals first
    | assumption
    | exact fun _ => rfl
    | simp_all [Life.did, MainPc.phase, MainPc.before, MainPc.runs, MainPc.coded, MainPc.asked,
        MainPc.code]

/-- While `main` has a thread it is neither starting up nor closing. -/
theorem runs_phase {pc : MainPc} {t : Thread} (h : pc.runs t = true) :
    pc.phase ≠ .init ∧ pc ≠ .watchdogShutdown ∧ pc.coded = none ∧ pc.before .ingress = false ∧
      (pc.before .worker = true → t = .ingress) ∧ (pc.before .monitor = true → t ≠ .monitor) := by
  cases pc <;> cases t <;> first
    | (cases h; done)
    | simp [MainPc.phase, MainPc.coded, MainPc.before]

/-- What a step of a thread leaves alone: everything but its own place, the log and, unless it is
    the ingress thread, the socket. -/
structure Frame (t : Thread) (s s' : Life) : Prop where
  main : s'.main = s.main
  running : s'.running = s.running
  logger : s'.logger = s.logger
  notify : s'.notify = s.notify
  exit : s'.g_exit_requested = s.g_exit_requested
  ingress : t ≠ .ingress → s'.ingress = s.ingress
  worker : t ≠ .worker → s'.worker = s.worker
  monitor : t ≠ .monitor → s'.monitor = s.monitor
  socket : t = .ingress → s'.socket = s.socket
  log : ∃ events, s'.log = s.log ++ events

theorem ingressStep_frame {s s' : Life} {n : Nat} (hs : ingressStep s n = some s') :
    Frame .ingress s s' := by
  unfold ingressStep at hs
  split at hs <;> (try split at hs) <;> cases hs <;>
    exact ⟨rfl, rfl, rfl, rfl, rfl, fun h => absurd rfl h, fun _ => rfl, fun _ => rfl,
      fun _ => rfl, by simp [Life.did]⟩

theorem workerStep_frame {s s' : Life} {ok after : Bool} (hs : workerStep s ok after = some s') :
    Frame .worker s s' := by
  unfold workerStep at hs
  split at hs <;> (try split at hs) <;> cases hs <;>
    exact ⟨rfl, rfl, rfl, rfl, rfl, fun _ => rfl, fun h => absurd rfl h, fun _ => rfl,
      nofun, by simp [Life.did, sessionCall]⟩

theorem timerStep_frame {s s' : Life} {answer : MonitorAnswer} {reactor after : Bool}
    {pc : TimerPc} (hs : timerStep s answer reactor after pc = some s') :
    Frame .monitor s s' := by
  have hnot : Thread.monitor ≠ .ingress := by decide
  cases pc <;> simp only [timerStep] at hs <;> (try split at hs) <;> cases hs <;>
    exact ⟨rfl, rfl, rfl, rfl, rfl, fun _ => rfl, fun _ => rfl, fun h => absurd rfl h,
      fun h => absurd h hnot, by simp [Life.did, sessionCall]⟩

theorem monitorStep_frame {s s' : Life} {answer : MonitorAnswer} {after : Bool}
    (hs : monitorStep s answer after = some s') : Frame .monitor s s' := by
  unfold monitorStep at hs
  split at hs
  case h_9 reactor pc _ =>
    exact timerStep_frame hs
  all_goals
    (try split at hs) <;> cases hs <;>
      exact ⟨rfl, rfl, rfl, rfl, rfl, fun _ => rfl, fun _ => rfl, fun h => absurd rfl h,
        nofun, by simp [Life.did]⟩

/-- What `main` knows stays so when a thread moves. -/
theorem Sane.thread {s s' : Life} {t : Thread} (h : Sane s) (hruns : s.main.runs t = true)
    (hf : Frame t s s') : Sane s' := by
  obtain ⟨hphase, hshut, hcoded, hbefore, hb, hm⟩ := runs_phase hruns
  constructor
  · rw [hf.main, hf.logger]
    exact h.logger
  · rw [hf.main]
    intro hinit
    exact absurd hinit hphase
  · rw [hf.main, hbefore]
    intro hno
    cases hno
  · rw [hf.main]
    intro hworker
    have ht := hb hworker
    rw [hf.worker (by rw [ht]; decide), hf.socket ht]
    exact h.worker hworker
  · rw [hf.main]
    intro hmonitor
    rw [hf.monitor (hm hmonitor)]
    exact h.monitor hmonitor
  · rw [hf.main]
    intro hno
    have ht : t ≠ .worker := by
      intro heq
      rw [heq, hno] at hruns
      cases hruns
    rw [hf.worker ht]
    exact h.idle hno
  · rw [hf.main]
    intro hno
    have ht : t ≠ .monitor := by
      intro heq
      rw [heq, hno] at hruns
      cases hruns
    rw [hf.monitor ht]
    exact h.reactor hno
  · rw [hf.main, hf.exit]
    exact h.asked
  · rw [hf.main, hcoded]
    exact ⟨fun heq => absurd heq hshut, fun hno => by cases hno⟩
  · rw [hf.main, hcoded]
    intro code hno
    cases hno

/-- What the log remembers when the places do not: that `gateway_app_init` had succeeded where a
    descriptor may be left, and that every thread was created where `main` stops in order. -/
structure Remembers (s : Life) : Prop where
  ring : (s.main.phase = .run ∨ s.main.phase = .stop ∨ s.main = .watchdogInit ∨ s.notify = true ∨
    s.socket = true) → .opened .ring ∈ s.log
  ingress : s.main.before .ingress = false ∧ s.main.coded ≠ some 1 →
    .created .ingress ∈ s.log
  worker : s.main.before .worker = false ∧ s.main.phase ≠ .run ∧ s.main.coded ≠ some 1 ∨
    s.main = .createMonitor → .created .worker ∈ s.log
  monitor : s.main.before .monitor = false ∧ s.main.phase ≠ .run ∧ s.main.coded ≠ some 1 →
    .created .monitor ∈ s.log

theorem mainStep_remembers {s s' : Life} {ok : Bool} (hsane : Sane s) (h : Remembers s)
    (hs : mainStep s ok = some s') : Remembers s' := by
  obtain ⟨main, ingress, worker, monitor, running, g_exit_requested, logger, notify, socket,
    log⟩ := s
  obtain ⟨hring, hingress, hworker, hmonitor⟩ := h
  have hinit := hsane.init
  have hcoded := hsane.coded
  clear hsane
  cases main
  case unwindIngress both =>
    cases both <;> simp only [mainStep] at hs <;> split at hs <;> cases hs <;> constructor
    all_goals first
      | assumption
      | simp_all [Life.did, MainPc.phase, MainPc.before, MainPc.coded]
  case waitExit =>
    cases g_exit_requested <;> cases hs <;> constructor
    all_goals first
      | assumption
      | simp_all [MainPc.phase, MainPc.before, MainPc.coded]
  all_goals
    simp only [mainStep] at hs
    try split at hs
  all_goals
    cases hs
  all_goals
    constructor
  all_goals first
    | assumption
    | simp_all [Life.did, onlyIf, MainPc.phase, MainPc.before, MainPc.coded]

theorem Remembers.thread {s s' : Life} {t : Thread} (h : Remembers s)
    (hruns : s.main.runs t = true) (hf : Frame t s s') : Remembers s' := by
  obtain ⟨events, hlog⟩ := hf.log
  have hkeep : ∀ e, e ∈ s.log → e ∈ s'.log := by
    intro e he
    rw [hlog]
    exact List.mem_append_left _ he
  have hphase : s.main.phase = .run ∨ s.main.phase = .stop := by
    cases hmain : s.main <;> cases t <;> simp_all [MainPc.runs, MainPc.phase]
  constructor
  · intro _
    apply hkeep
    apply h.ring
    rcases hphase with hrun | hstop
    · exact Or.inl hrun
    · exact Or.inr (Or.inl hstop)
  · rw [hf.main]
    exact fun hp => hkeep _ (h.ingress hp)
  · rw [hf.main]
    exact fun hp => hkeep _ (h.worker hp)
  · rw [hf.main]
    exact fun hp => hkeep _ (h.monitor hp)

theorem remembers_start : Remembers lifeStart := by
  constructor <;> simp [lifeStart, MainPc.phase, MainPc.before]

/-- **The invariant of the process.** -/
structure LifeInv (s : Life) : Prop where
  booked : Booked s
  sane : Sane s
  remembers : Remembers s

theorem lifeInv_start : LifeInv lifeStart where
  booked := by
    refine ⟨fun _ => .absent, ?_, ?_, ?_, ?_⟩
    · have hheld : heldAt lifeStart = fun _ => false := by
        funext r
        cases r <;> rfl
      rw [hheld]
      rfl
    · intro t ht
      cases t <;> cases ht
    · intro t _
      exact Or.inl rfl
    · intro t _
      rfl
  sane := sane_start
  remembers := remembers_start

theorem LifeInv.step {s s' : Life} {l : LifeStep} (h : LifeInv s) (hs : lifeStep s l = some s') :
    LifeInv s' := by
  obtain ⟨hbooked, hsane, hremembers⟩ := h
  cases l with
  | signal =>
    cases hs
    refine ⟨hbooked.quiet rfl ?_ rfl (sameThreads_of rfl fun u => ?_), ?_, ?_⟩
    · funext r
      cases r <;> rfl
    · cases u <;> rfl
    · exact ⟨hsane.logger, hsane.init, hsane.ingress, hsane.worker, hsane.monitor, hsane.idle,
        hsane.reactor, fun _ => rfl, hsane.closed, hsane.coded⟩
    · exact ⟨hremembers.ring, hremembers.ingress, hremembers.worker, hremembers.monitor⟩
  | main ok =>
    exact ⟨mainStep_booked hbooked hsane hs, mainStep_sane hsane hs,
      mainStep_remembers hsane hremembers hs⟩
  | ingress n =>
    simp only [lifeStep] at hs
    split at hs
    case isFalse => cases hs
    case isTrue hruns =>
      have hf := ingressStep_frame hs
      exact ⟨ingressStep_booked hbooked hruns hs, hsane.thread hruns hf,
        hremembers.thread hruns hf⟩
  | worker ok after =>
    simp only [lifeStep] at hs
    split at hs
    case isFalse => cases hs
    case isTrue hruns =>
      have hf := workerStep_frame hs
      exact ⟨workerStep_booked hbooked hruns hs, hsane.thread hruns hf,
        hremembers.thread hruns hf⟩
  | monitor answer after =>
    simp only [lifeStep] at hs
    split at hs
    case isFalse => cases hs
    case isTrue hruns =>
      have hf := monitorStep_frame hs
      exact ⟨monitorStep_booked hbooked hruns hs, hsane.thread hruns hf,
        hremembers.thread hruns hf⟩

theorem lifeInv_run {steps : List LifeStep} {s : Life}
    (h : run lifeStep lifeStart steps = some s) : LifeInv s :=
  run_inv (fun _ _ _ hinv hstep => hinv.step hstep) lifeInv_start h

/-- What is left open at the end. -/
theorem LifeInv.held_at_exit {s : Life} (h : LifeInv s) {code : Int} (hexit : s.main = .exited code)
    {r : Resource} (hr : heldAt s r = true) :
    code = 1 ∧ (r = .notify ∨ r = .socket) ∧ .opened .ring ∈ s.log := by
  have hcoded : s.main.coded = some code := by
    rw [hexit]
    rfl
  have hreactor : s.monitor.holds r = false := by
    have hruns : s.main.runs .monitor = false := by
      rw [hexit]
      rfl
    rcases h.sane.reactor hruns with hpc | hpc
    · rw [hpc]
      rfl
    · rw [hpc]
      rfl
  have hlogger : s.logger = false := by
    apply h.sane.logger
    rw [hexit]
    exact Or.inr (Or.inr (Option.some_ne_none _))
  have hone : ∀ there : Bool, there = true → (there = s.notify ∨ there = s.socket) → code = 1 := by
    intro there hthere hwhich
    rcases h.sane.coded code hcoded with rfl | rfl
    · have hclosed := h.sane.closed.2 hcoded
      rcases hwhich with hw | hw
      · rw [hw, hclosed.1] at hthere
        cases hthere
      · rw [hw, hclosed.2] at hthere
        cases hthere
    · rfl
  cases r with
  | notify =>
    exact ⟨hone _ hr (Or.inl rfl), Or.inl rfl,
      h.remembers.ring (Or.inr (Or.inr (Or.inr (Or.inl hr))))⟩
  | socket =>
    exact ⟨hone _ hr (Or.inr rfl), Or.inr rfl,
      h.remembers.ring (Or.inr (Or.inr (Or.inr (Or.inr hr))))⟩
  | logger =>
    rw [heldAt, hlogger] at hr
    cases hr
  | epoll =>
    rw [heldAt, hreactor] at hr
    cases hr
  | timer =>
    rw [heldAt, hreactor] at hr
    cases hr
  | _ =>
    rw [heldAt, hexit] at hr
    cases hr

/-- **Custody.** In every run, whatever fails, whoever is scheduled and whenever a signal comes:
    nothing is used that is not open, nothing is closed twice or under a thread that may use it,
    and every thread is joined once. When `main` returns, every thread it has created has been
    joined; with `0`, a signal has asked for it, all three threads ran and everything is closed;
    what may be left open is the notify and the MQTT socket, when `gateway_app_run` has failed. -/
theorem process_custody {steps : List LifeStep} {s : Life}
    (h : run lifeStep lifeStart steps = some s) :
    Disciplined threads shared s.log ∧
    ∀ code, s.main = .exited code →
      (∀ t, s.log.count (.created t) = s.log.count (.joined t)) ∧
      (code = 0 → s.g_exit_requested = true ∧ (∀ t, s.log.count (.joined t) = 1) ∧
        ∀ r, s.log.count (.opened r) = s.log.count (.closed r)) ∧
      ∀ r, s.log.count (.opened r) ≠ s.log.count (.closed r) →
        code = 1 ∧ (r = .notify ∨ r = .socket) ∧ .opened .ring ∈ s.log := by
  have hinv := lifeInv_run h
  obtain ⟨status, hrun, hthreads⟩ := hinv.booked
  have hagrees := agrees_of_run threads shared hrun
  refine ⟨disciplined_of_check threads shared hrun, ?_⟩
  intro code hexit
  have hcoded : s.main.coded = some code := by
    rw [hexit]
    rfl
  have hjoined : ∀ t, s.log.count (.created t) = s.log.count (.joined t) := by
    intro t
    have hruns : s.main.runs t = false := by
      rw [hexit]
      cases t <;> rfl
    rw [hagrees.created, hagrees.joined]
    rcases hthreads.idle t hruns with ht | ht
    · simp [ht]
    · simp [ht]
  have hleft : ∀ r, s.log.count (.opened r) ≠ s.log.count (.closed r) →
      code = 1 ∧ (r = .notify ∨ r = .socket) ∧ .opened .ring ∈ s.log := by
    intro r hr
    apply hinv.held_at_exit hexit
    rw [hagrees.held r] at hr
    by_cases hheld : heldAt s r = true
    · exact hheld
    · simp [hheld] at hr
  refine ⟨hjoined, ?_, hleft⟩
  intro hzero
  subst hzero
  have hno : s.main.coded ≠ some 1 := by
    rw [hcoded]
    decide
  have hcreated : ∀ t, .created t ∈ s.log := by
    intro t
    cases t with
    | ingress => exact hinv.remembers.ingress ⟨by rw [hexit]; rfl, hno⟩
    | worker =>
      exact hinv.remembers.worker (Or.inl ⟨by rw [hexit]; rfl, by rw [hexit]; exact nofun, hno⟩)
    | monitor =>
      exact hinv.remembers.monitor ⟨by rw [hexit]; rfl, by rw [hexit]; exact nofun, hno⟩
  refine ⟨hinv.sane.asked (Or.inr hcoded), ?_, ?_⟩
  · intro t
    have hpos := List.count_pos_iff.mpr (hcreated t)
    have honce := hagrees.joined t
    have hle : s.log.count (.joined t) ≤ 1 := by
      rw [honce]
      split <;> omega
    have := hjoined t
    omega
  · intro r
    by_contra hne
    cases (hleft r hne).1

/-- A run in which everything succeeds, one point is published and a signal comes. -/
def orderlySteps : List LifeStep :=
  List.replicate 13 (.main true) ++
    [.ingress 1, .ingress 1, .ingress 1, .worker true true, .worker true true, .worker true true,
      .worker false true, .worker false true, .worker true true, .worker true true,
      .monitor .idle true, .signal,
      .main true, .main true, .ingress 0, .ingress 0, .ingress 0, .main true, .worker true true,
      .worker true true, .worker true true, .main true] ++
    List.replicate 5 (.monitor .idle true) ++ List.replicate 7 (.main true)

/-- The same with a third `pthread_create` that fails after a point has been published. -/
def failingSteps : List LifeStep :=
  List.replicate 10 (.main true) ++
    [.ingress 1, .ingress 1, .ingress 1, .worker true true, .worker true true, .worker true true,
      .worker false true, .worker false true, .worker true true, .worker true true, .main false,
      .ingress 0, .ingress 0, .ingress 0, .main true, .worker true true,
      .worker true true, .worker true true, .main true] ++
    List.replicate 4 (.main true)

def endOf (steps : List LifeStep) : Life := (run lifeStep lifeStart steps).getD lifeStart

theorem orderlySteps_run : run lifeStep lifeStart orderlySteps = some (endOf orderlySteps) := rfl

theorem process_custody_orderly :
    (endOf orderlySteps).main = .exited 0 ∧
      Disciplined threads shared (endOf orderlySteps).log :=
  ⟨rfl, (process_custody orderlySteps_run).1⟩

example : (endOf failingSteps).main = .exited 1 ∧ (endOf failingSteps).notify = true ∧
    (endOf failingSteps).socket = true := by decide

/-! ## Every stop -/

/-- `main` has cleared `running` for good, or gives up before it has set it. -/
def MainPc.stopping : MainPc → Bool
  | .unwindIngress _ | .unwindWorker | .joinIngress | .joinWorker | .joinMonitor
  | .sessionShutdown | .watchdogShutdown | .shutdownAll _ | .ringDestroy _ | .storageClose _
  | .loggerShutdown _ | .exited _ => true
  | _ => false

/-- How many steps `main` has left at most, once a signal has come. -/
def MainPc.rank : MainPc → Nat
  | .loadConfig => 23
  | .loggerInit => 22
  | .storageOpen => 21
  | .register => 20
  | .initAll => 19
  | .ringInit => 18
  | .watchdogInit => 17
  | .setRunning => 16
  | .createIngress => 15
  | .createWorker => 14
  | .createMonitor => 13
  | .notifyReady => 12
  | .waitExit => 11
  | .clearRunning => 10
  | .joinIngress => 9
  | .joinWorker => 8
  | .joinMonitor => 7
  | .sessionShutdown | .unwindIngress _ => 6
  | .watchdogShutdown | .unwindWorker => 5
  | .shutdownAll _ => 4
  | .ringDestroy _ => 3
  | .storageClose _ => 2
  | .loggerShutdown _ => 1
  | .exited _ => 0

/-- How many steps a thread has left at most, once `running` is false. -/
def IngressPc.rank : IngressPc → Nat
  | .poll => 12
  | .push n => n + 3
  | .gauges => 2
  | .check => 1
  | .done => 0

def WorkerPc.rank : WorkerPc → Nat
  | .pop => 11
  | .store => 10
  | .engine => 9
  | .alarm => 8
  | .submit => 7
  | .tick => 6
  | .publish => 5
  | .publishing => 4
  | .mark => 3
  | .gauges => 2
  | .check => 1
  | .done => 0

def MonitorPc.rank : MonitorPc → Nat
  | .callback _ .alive => 11
  | .callback _ .fetch => 10
  | .callback _ .replay => 9
  | .callback _ .replaying => 8
  | .callback _ .ping => 7
  | .callback _ .pinging | .epollCreate => 6
  | .callback _ .pending | .timerCreate => 5
  | .callback _ .heartbeat | .epollCtl | .wait => 4
  | .callback _ .beating | .callback _ .check | .addTimer => 3
  | .loop => 2
  | .fallback | .destroy => 1
  | .done => 0

def Life.rank (s : Life) : Nat :=
  s.main.rank + s.ingress.rank + s.worker.rank + s.monitor.rank

/-- What bounds the rest of a run. -/
structure Bounded (s : Life) : Prop where
  running : s.main.stopping = true ∨ s.main.phase = .init → s.running = false
  push : ∀ n, s.ingress = .push n → n ≤ 8

theorem bounded_start : Bounded lifeStart where
  running _ := rfl
  push := nofun

/-- What a step of `main` does to the bounds: it leaves the threads where they are. -/
theorem mainStep_threads {s s' : Life} {ok : Bool} (hs : mainStep s ok = some s') :
    s'.ingress = s.ingress ∧ s'.worker = s.worker ∧ s'.monitor = s.monitor ∧
      s'.g_exit_requested = s.g_exit_requested := by
  obtain ⟨main, ingress, worker, monitor, running, g_exit_requested, logger, notify, socket,
    log⟩ := s
  cases main
  case waitExit => cases g_exit_requested <;> cases hs <;> exact ⟨rfl, rfl, rfl, rfl⟩
  all_goals
    simp only [mainStep] at hs
    try split at hs
  all_goals
    cases hs
  all_goals exact ⟨rfl, rfl, rfl, rfl⟩

theorem mainStep_bounded {s s' : Life} {ok : Bool} (h : Bounded s)
    (hs : mainStep s ok = some s') :
    Bounded s' ∧ (s.main.stopping = true → s'.main.stopping = true) := by
  obtain ⟨hingress, -⟩ := mainStep_threads hs
  have hpush : ∀ n, s'.ingress = .push n → n ≤ 8 := by
    rw [hingress]
    exact h.push
  have hrunning := h.running
  refine ⟨⟨?_, hpush⟩, ?_⟩
  all_goals
    obtain ⟨main, ingress, worker, monitor, running, g_exit_requested, logger, notify, socket,
      log⟩ := s
    cases main
    case unwindIngress both =>
      cases both <;> simp only [mainStep] at hs <;> split at hs <;> cases hs <;>
        simp_all [Life.did, MainPc.stopping, MainPc.phase]
    case waitExit =>
      cases g_exit_requested <;> cases hs <;> simp [MainPc.stopping, MainPc.phase]
    all_goals
      simp only [mainStep] at hs
      try split at hs
    all_goals
      cases hs
    all_goals simp_all [Life.did, MainPc.stopping, MainPc.phase]

/-- `main` comes closer to its end, unless it waits for a signal. -/
theorem mainStep_rank {s s' : Life} {ok : Bool} (hs : mainStep s ok = some s')
    (h : s.g_exit_requested = true ∨ s.main.stopping = true) : s'.main.rank < s.main.rank := by
  obtain ⟨main, ingress, worker, monitor, running, g_exit_requested, logger, notify, socket,
    log⟩ := s
  cases main
  case unwindIngress both =>
    cases both <;> simp only [mainStep] at hs <;> split at hs <;> cases hs <;>
      simp [Life.did, MainPc.rank]
  case waitExit =>
    cases g_exit_requested with
    | false => simp [MainPc.stopping] at h
    | true =>
      cases hs
      simp [MainPc.rank]
  all_goals
    simp only [mainStep] at hs
    try split at hs
  all_goals
    cases hs
  all_goals simp [Life.did, MainPc.rank]

theorem ingressStep_bounded {s s' : Life} {n : Nat} (h : Bounded s)
    (hs : ingressStep s n = some s') :
    (∀ n, s'.ingress = .push n → n ≤ 8) ∧
      (s.running = false → s'.ingress.rank < s.ingress.rank) := by
  have hpush := h.push
  unfold ingressStep at hs
  split at hs <;> (try split at hs) <;> cases hs <;>
    simp_all [Life.did, IngressPc.rank] <;> omega

theorem workerStep_rank {s s' : Life} {ok after : Bool} (hs : workerStep s ok after = some s')
    (h : s.running = false) : s'.worker.rank < s.worker.rank := by
  cases hpc : s.worker <;> simp only [workerStep, hpc] at hs <;> (try split at hs) <;> cases hs <;>
    cases ok <;> simp_all [Life.did, sessionCall, WorkerPc.rank]

theorem timerStep_rank {s s' : Life} {answer : MonitorAnswer} {reactor after : Bool}
    {pc : TimerPc} (hs : timerStep s answer reactor after pc = some s') (h : s.running = false) :
    s'.monitor.rank < (MonitorPc.callback reactor pc).rank := by
  cases pc <;> simp only [timerStep] at hs <;> (try split at hs) <;> cases hs <;>
    cases reactor <;> cases answer <;>
      simp_all [Life.did, sessionCall, MonitorPc.rank, afterCallback]

theorem monitorStep_rank {s s' : Life} {answer : MonitorAnswer} {after : Bool}
    (hs : monitorStep s answer after = some s') (h : s.running = false) :
    s'.monitor.rank < s.monitor.rank := by
  unfold monitorStep at hs
  split at hs
  case h_9 reactor pc hpc =>
    rw [hpc]
    exact timerStep_rank hs h
  all_goals
    (try split at hs) <;> cases hs <;> simp_all [Life.did, MonitorPc.rank]

/-- A thread moves: `main` and what it has decided stay, the bounds hold on, and once `running` is
    false there is less to do. -/
theorem thread_bounded {s s' : Life} {t : Thread} (h : Bounded s) (hf : Frame t s s')
    (hpush : ∀ n, s'.ingress = .push n → n ≤ 8) : Bounded s' := by
  refine ⟨?_, hpush⟩
  rw [hf.main, hf.running]
  exact h.running

/-- One step: the bounds hold on, a stop goes on, and there is less to do. -/
theorem lifeStep_bounded {s s' : Life} {l : LifeStep} (h : Bounded s)
    (hs : lifeStep s l = some s') :
    Bounded s' ∧ (s.main.stopping = true → s'.main.stopping = true ∧ s'.rank ≤ s.rank ∧
      (l ≠ .signal → s'.rank < s.rank)) := by
  cases l with
  | signal =>
    cases hs
    exact ⟨⟨h.running, h.push⟩, fun hstop => ⟨hstop, Nat.le_refl _, fun hno => absurd rfl hno⟩⟩
  | main ok =>
    obtain ⟨hb, hstop⟩ := mainStep_bounded h hs
    obtain ⟨hingress, hworker, hmonitor, -⟩ := mainStep_threads hs
    refine ⟨hb, fun hst => ?_⟩
    have hrank := mainStep_rank hs (Or.inr hst)
    have hless : s'.rank < s.rank := by
      simp only [Life.rank, hingress, hworker, hmonitor]
      omega
    exact ⟨hstop hst, Nat.le_of_lt hless, fun _ => hless⟩
  | ingress n =>
    simp only [lifeStep] at hs
    split at hs
    case isFalse => cases hs
    case isTrue =>
      have hf := ingressStep_frame hs
      obtain ⟨hpush, hrank⟩ := ingressStep_bounded h hs
      refine ⟨thread_bounded h hf hpush, fun hst => ?_⟩
      have hless : s'.rank < s.rank := by
        have := hrank (h.running (Or.inl hst))
        simp only [Life.rank, hf.main, hf.worker (by decide), hf.monitor (by decide)]
        omega
      exact ⟨hf.main ▸ hst, Nat.le_of_lt hless, fun _ => hless⟩
  | worker ok after =>
    simp only [lifeStep] at hs
    split at hs
    case isFalse => cases hs
    case isTrue =>
      have hf := workerStep_frame hs
      have hpush : ∀ n, s'.ingress = .push n → n ≤ 8 := by
        rw [hf.ingress (by decide)]
        exact h.push
      refine ⟨thread_bounded h hf hpush, fun hst => ?_⟩
      have hless : s'.rank < s.rank := by
        have := workerStep_rank hs (h.running (Or.inl hst))
        simp only [Life.rank, hf.main, hf.ingress (by decide), hf.monitor (by decide)]
        omega
      exact ⟨hf.main ▸ hst, Nat.le_of_lt hless, fun _ => hless⟩
  | monitor answer after =>
    simp only [lifeStep] at hs
    split at hs
    case isFalse => cases hs
    case isTrue =>
      have hf := monitorStep_frame hs
      have hpush : ∀ n, s'.ingress = .push n → n ≤ 8 := by
        rw [hf.ingress (by decide)]
        exact h.push
      refine ⟨thread_bounded h hf hpush, fun hst => ?_⟩
      have hless : s'.rank < s.rank := by
        have := monitorStep_rank hs (h.running (Or.inl hst))
        simp only [Life.rank, hf.main, hf.ingress (by decide), hf.worker (by decide)]
        omega
      exact ⟨hf.main ▸ hst, Nat.le_of_lt hless, fun _ => hless⟩

theorem bounded_run {steps : List LifeStep} {s : Life}
    (h : run lifeStep lifeStart steps = some s) : Bounded s :=
  run_inv (fun _ _ _ hb hstep => (lifeStep_bounded hb hstep).1) bounded_start h

/-- At most 43 steps are left where a stop begins. -/
theorem Bounded.rank_le {s : Life} (h : Bounded s) (hstop : s.main.stopping = true) :
    s.rank ≤ 43 := by
  have hmain : s.main.rank ≤ 9 := by
    cases hpc : s.main <;> simp_all [MainPc.stopping, MainPc.rank]
  have hingress : s.ingress.rank ≤ 12 := by
    cases hpc : s.ingress with
    | push n =>
      have := h.push n hpc
      simp only [IngressPc.rank]
      omega
    | _ => simp [IngressPc.rank]
  have hworker : s.worker.rank ≤ 11 := by
    cases s.worker <;> decide
  have hmonitor : s.monitor.rank ≤ 11 := by
    cases s.monitor with
    | callback reactor pc => cases pc <;> decide +revert
    | _ => decide
  simp only [Life.rank]
  omega

def LifeStep.isMain : LifeStep → Bool
  | .main _ => true
  | _ => false

/-- Once a signal has come it stays, and only steps of `main` change where `main` is. -/
theorem lifeStep_asked {s s' : Life} {l : LifeStep} (hs : lifeStep s l = some s')
    (hreq : s.g_exit_requested = true) :
    s'.g_exit_requested = true ∧ s'.main.rank ≤ s.main.rank ∧
      (l.isMain = true → s'.main.rank < s.main.rank) := by
  cases l with
  | signal =>
    cases hs
    exact ⟨rfl, Nat.le_refl _, nofun⟩
  | main ok =>
    have hrank := mainStep_rank hs (Or.inl hreq)
    obtain ⟨-, -, -, hexit⟩ := mainStep_threads hs
    exact ⟨hexit.trans hreq, Nat.le_of_lt hrank, fun _ => hrank⟩
  | ingress n =>
    simp only [lifeStep] at hs
    split at hs
    case isFalse => cases hs
    case isTrue =>
      have hf := ingressStep_frame hs
      exact ⟨hf.exit.trans hreq, Nat.le_of_eq (congrArg MainPc.rank hf.main), nofun⟩
  | worker ok after =>
    simp only [lifeStep] at hs
    split at hs
    case isFalse => cases hs
    case isTrue =>
      have hf := workerStep_frame hs
      exact ⟨hf.exit.trans hreq, Nat.le_of_eq (congrArg MainPc.rank hf.main), nofun⟩
  | monitor answer after =>
    simp only [lifeStep] at hs
    split at hs
    case isFalse => cases hs
    case isTrue =>
      have hf := monitorStep_frame hs
      exact ⟨hf.exit.trans hreq, Nat.le_of_eq (congrArg MainPc.rank hf.main), nofun⟩

/-! ## Waiting for a session call -/

/-- A thread that has not finished can go on, unless another is in a session call. -/
theorem ingressStep_enabled {s : Life} (h : s.ingress ≠ .done) :
    (ingressStep s 0).isSome = true := by
  unfold ingressStep
  split <;> (try split) <;> first | rfl | exact absurd ‹_› h | omega

theorem workerStep_enabled {s : Life} (h : s.worker ≠ .done) (hlock : s.locked = false) :
    (workerStep s true true).isSome = true := by
  unfold workerStep
  split <;> (try split) <;> first | rfl | exact absurd ‹_› h | simp_all

theorem timerStep_enabled {s : Life} (hlock : s.locked = false) (reactor : Bool) (pc : TimerPc) :
    (timerStep s .idle reactor true pc).isSome = true := by
  cases pc <;> simp [timerStep, hlock]

theorem monitorStep_enabled {s : Life} (h : s.monitor ≠ .done) (hlock : s.locked = false) :
    (monitorStep s .idle true).isSome = true := by
  unfold monitorStep
  split <;> (try split) <;>
    first | rfl | exact timerStep_enabled hlock _ _ | exact absurd ‹_› h

/-- With the lock free, `main` can move, or the thread it waits for can. -/
theorem lifeStep_enabled {s : Life} (hlock : s.locked = false)
    (h : ∀ code, s.main ≠ .exited code) : ∃ l, l ≠ .signal ∧ (lifeStep s l).isSome = true := by
  by_cases hmain : (mainStep s true).isSome = true
  · exact ⟨.main true, nofun, hmain⟩
  · -- a join is all that can hold `main` up
    have hwaits : (s.main.runs .ingress = true ∧ s.ingress ≠ .done) ∨
        (s.main.runs .worker = true ∧ s.worker ≠ .done) ∨
        (s.main.runs .monitor = true ∧ s.monitor ≠ .done) := by
      unfold mainStep at hmain
      split at hmain <;> (try split at hmain) <;> simp_all [MainPc.runs]
    rcases hwaits with ⟨hruns, hpc⟩ | ⟨hruns, hpc⟩ | ⟨hruns, hpc⟩
    · refine ⟨.ingress 0, nofun, ?_⟩
      simpa [lifeStep, hruns] using ingressStep_enabled hpc
    · refine ⟨.worker true true, nofun, ?_⟩
      simpa [lifeStep, hruns] using workerStep_enabled hpc hlock
    · refine ⟨.monitor .idle true, nofun, ?_⟩
      simpa [lifeStep, hruns] using monitorStep_enabled hpc hlock

/-- `main` has not joined a thread that is in a session call. -/
theorem Sane.runs_of_inCall {s : Life} (h : Sane s) :
    (s.worker.inCall = true → s.main.runs .worker = true) ∧
      (s.monitor.inCall = true → s.main.runs .monitor = true) := by
  constructor
  · intro hcall
    by_contra hno
    rcases h.idle (by simpa using hno) with hpc | hpc
    · rw [hpc] at hcall
      cases hcall
    · rw [hpc] at hcall
      cases hcall
  · intro hcall
    by_contra hno
    rcases h.reactor (by simpa using hno) with hpc | hpc
    · rw [hpc] at hcall
      cases hcall
    · rw [hpc] at hcall
      cases hcall

/-- While a session call is under way, `main` has not returned. -/
theorem Sane.not_exited {s : Life} (h : Sane s) (hlock : s.locked = true) (code : Int) :
    s.main ≠ .exited code := by
  intro hexit
  have hruns : ∀ t, s.main.runs t = false := by
    intro t
    rw [hexit]
    cases t <;> rfl
  rcases Bool.or_eq_true_iff.mp hlock with hcall | hcall
  · have := h.runs_of_inCall.1 hcall
    rw [hruns] at this
    cases this
  · have := h.runs_of_inCall.2 hcall
    rw [hruns] at this
    cases this

/-- The call under way may return. -/
theorem Sane.return_enabled {s : Life} (h : Sane s) (hlock : s.locked = true) :
    ∃ l, l.returns s = true ∧ (lifeStep s l).isSome = true := by
  rcases Bool.or_eq_true_iff.mp hlock with hcall | hcall
  · refine ⟨.worker true true, hcall, ?_⟩
    rw [lifeStep, if_pos (h.runs_of_inCall.1 hcall)]
    cases hpc : s.worker <;> rw [hpc] at hcall <;> first | (cases hcall; done) | skip
    simp [workerStep, hpc]
  · refine ⟨.monitor .idle true, hcall, ?_⟩
    rw [lifeStep, if_pos (h.runs_of_inCall.2 hcall)]
    cases hpc : s.monitor with
    | callback reactor pc =>
      rw [hpc] at hcall
      simp only [monitorStep, hpc]
      cases pc <;> first | (cases hcall; done) | rfl
    | _ =>
      rw [hpc] at hcall
      cases hcall

/-- Only its return ends a session call. -/
theorem lifeStep_locked {s s' : Life} {l : LifeStep} (hs : lifeStep s l = some s')
    (hlock : s.locked = true) (hreturn : l.returns s = false) : s'.locked = true := by
  cases l with
  | signal =>
    cases hs
    exact hlock
  | main ok =>
    obtain ⟨-, hworker, hmonitor, -⟩ := mainStep_threads hs
    rw [Life.locked, hworker, hmonitor]
    exact hlock
  | ingress n =>
    simp only [lifeStep] at hs
    split at hs
    case isFalse => cases hs
    case isTrue =>
      have hf := ingressStep_frame hs
      rw [Life.locked, hf.worker (by decide), hf.monitor (by decide)]
      exact hlock
  | worker ok after =>
    simp only [lifeStep] at hs
    split at hs
    case isFalse => cases hs
    case isTrue =>
      -- the monitor is in the call, and stays there
      have hmonitor : s.monitor.inCall = true :=
        (Bool.or_eq_true_iff.mp hlock).resolve_left fun hcall => by
          rw [LifeStep.returns, hcall] at hreturn
          cases hreturn
      have hf := workerStep_frame hs
      rw [Life.locked, hf.monitor (by decide), hmonitor, Bool.or_true]
  | monitor answer after =>
    simp only [lifeStep] at hs
    split at hs
    case isFalse => cases hs
    case isTrue =>
      have hworker : s.worker.inCall = true :=
        (Bool.or_eq_true_iff.mp hlock).resolve_right fun hcall => by
          rw [LifeStep.returns, hcall] at hreturn
          cases hreturn
      have hf := monitorStep_frame hs
      rw [Life.locked, hf.worker (by decide), hworker, Bool.true_or]

/-- **A stop completes exactly if the session calls return.** Once a signal has come, `main` has at
    most 23 steps left, whoever else is scheduled in between; once it has cleared `running` for
    good, the whole process has at most 43, on the error paths too. While no session call is under
    way, no state before the return is stuck; one that is under way can return; and if it never
    does, `main` does not return either. -/
theorem stop_completes {before more : List LifeStep} {s s' : Life}
    (h : run lifeStep lifeStart before = some s) (h' : run lifeStep s more = some s') :
    (s.g_exit_requested = true → more.countP LifeStep.isMain ≤ 23) ∧
    (s.main.stopping = true → more.countP (· ≠ .signal) ≤ 43) ∧
    (s'.locked = false → (∀ code, s'.main ≠ .exited code) →
      ∃ l, l ≠ .signal ∧ (lifeStep s' l).isSome = true) ∧
    (s'.locked = true → ∃ l, l.returns s' = true ∧ (lifeStep s' l).isSome = true) ∧
    (s.locked = true → Along lifeStep (fun s l => l.returns s = false) s more →
      s'.locked = true ∧ ∀ code, s'.main ≠ .exited code) := by
  have hsane : Sane s := (lifeInv_run h).sane
  have hsane' : Sane s' :=
    (run_inv (fun _ _ _ hinv hstep => hinv.step hstep) (lifeInv_run h) h').sane
  refine ⟨?_, ?_, lifeStep_enabled, hsane'.return_enabled, ?_⟩
  · intro hreq
    have hcount := run_countP_le (fun s : Life => s.g_exit_requested = true) LifeStep.isMain
      (fun s => s.main.rank)
      (fun _ _ _ hr hstep => (lifeStep_asked hstep hr).1)
      (fun _ _ _ hr hstep => (lifeStep_asked hstep hr).2.1)
      (fun _ _ _ hr hstep => (lifeStep_asked hstep hr).2.2) hreq h'
    have hrank : s.main.rank ≤ 23 := by
      cases s.main <;> simp [MainPc.rank]
    omega
  · intro hstop
    have hb := bounded_run h
    have hcount := run_countP_le (fun s : Life => Bounded s ∧ s.main.stopping = true)
      (fun l => decide (l ≠ .signal)) Life.rank
      (fun _ _ _ hi hstep =>
        ⟨(lifeStep_bounded hi.1 hstep).1, ((lifeStep_bounded hi.1 hstep).2 hi.2).1⟩)
      (fun _ _ _ hi hstep => ((lifeStep_bounded hi.1 hstep).2 hi.2).2.1)
      (fun _ _ _ hi hstep hkind =>
        ((lifeStep_bounded hi.1 hstep).2 hi.2).2.2 (of_decide_eq_true hkind)) ⟨hb, hstop⟩ h'
    have := hb.rank_le hstop
    omega
  · intro hlock halong
    have hstill : s'.locked = true :=
      run_inv_along (I := fun s => s.locked = true)
        (fun _ _ _ hl hreturn hstep => lifeStep_locked hstep hl hreturn) hlock halong h'
    exact ⟨hstill, hsane'.not_exited hstill⟩

/-- The orderly run up to the state in which `running` has been cleared, and from there. -/
theorem orderlySteps_stop :
    run lifeStep lifeStart (orderlySteps.take 27) = some (endOf (orderlySteps.take 27)) ∧
    run lifeStep (endOf (orderlySteps.take 27)) (orderlySteps.drop 27) =
      some (endOf orderlySteps) :=
  ⟨rfl, rfl⟩

/-- The worker connects, and the broker never answers; a signal comes. -/
def silentSteps : List LifeStep :=
  List.replicate 13 (.main true) ++
    [.worker true true, .worker true true, .worker true true, .worker false true,
      .worker false true, .worker true true]

/-- What can still happen: the other two threads end, and `main` is left with the join. -/
def silentRest : List LifeStep :=
  [.signal, .main true, .main true, .ingress 0, .main true, .monitor .fails true,
    .monitor .idle true]

theorem silentSteps_run :
    run lifeStep lifeStart silentSteps = some (endOf silentSteps) ∧
    run lifeStep (endOf silentSteps) silentRest = some (endOf (silentSteps ++ silentRest)) :=
  ⟨rfl, rfl⟩

/-- An orderly stop, and one that hangs: `main` waits in a join, and nothing but the return of the
    worker's call can go on. -/
theorem stop_completes_orderly :
    ((endOf (orderlySteps.take 27)).main = .joinIngress ∧
      (endOf orderlySteps).main = .exited 0 ∧
      (orderlySteps.drop 27).countP (· ≠ .signal) ≤ 43) ∧
    ((endOf silentSteps).locked = true ∧
      (endOf (silentSteps ++ silentRest)).main = .joinWorker ∧
      (∀ code, (endOf (silentSteps ++ silentRest)).main ≠ .exited code) ∧
      ∀ l, l ≠ .signal → l.returns (endOf (silentSteps ++ silentRest)) = false →
        lifeStep (endOf (silentSteps ++ silentRest)) l = none) := by
  refine ⟨⟨rfl, rfl, (stop_completes orderlySteps_stop.1 orderlySteps_stop.2).2.1 rfl⟩, rfl, rfl,
    ?_, ?_⟩
  · have hwaits : Along lifeStep (fun s l => (!l.returns s) = true) (endOf silentSteps)
        silentRest := along_of_alongB rfl
    exact ((stop_completes silentSteps_run.1 silentSteps_run.2).2.2.2.2 rfl
      (hwaits.imp fun s l hl => by simpa using hl)).2
  · intro l hsignal hreturn
    cases l with
    | signal => exact absurd rfl hsignal
    | main ok => rfl
    | ingress n => rfl
    | worker ok after => cases hreturn
    | monitor answer after => rfl

end Lifecycle
end EdgeFlow
