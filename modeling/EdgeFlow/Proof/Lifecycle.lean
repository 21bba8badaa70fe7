import EdgeFlow.Runtime.Lifecycle

/-!
# The book of the process

What has been done so far goes through the rules of `Lib/Custody` in every state the process can
reach. The book is read off the state: what `main` holds follows from where it is, what the
monitor holds from where that is, and a thread is alive from its creation to its last step
(`Matches`). A step of `main` or of a thread is then a few events that this book lets through.
-/

set_option autoImplicit false

namespace EdgeFlow
namespace Lifecycle

open Lib Lib.Custody

/-! ## The book of a state -/

/-- Whether `main` holds what only it opens and closes. -/
def MainPc.holds : MainPc → Resource → Bool
  | .loadConfig, _ | .loggerInit, _ | .storageOpen, _ | .loggerShutdown _, _ | .exited _, _ => false
  | .register, r | .initAll, r | .storageClose _, r => r == .storage
  | .ringInit, r => r == .storage || r == .registry
  | .ringDestroy _, r => r == .storage || r == .ring
  | _, r => r == .storage || r == .registry || r == .ring

/-- What the monitor holds. -/
def MonitorPc.holds : MonitorPc → Resource → Bool
  | .epollCreate, _ | .fallback, _ | .callback false _, _ | .done, _ => false
  | .timerCreate, r => r == .epoll
  | _, r => r == .epoll || r == .timer

/-- What is open. -/
def heldAt (s : Life) : Resource → Bool
  | .logger => s.logger
  | .notify => s.notify
  | .socket => s.socket
  | .storage => s.main.holds .storage
  | .registry => s.main.holds .registry
  | .ring => s.main.holds .ring
  | .epoll => s.monitor.holds .epoll
  | .timer => s.monitor.holds .timer

/-- Whether a thread has taken its last step. -/
def doneAt (s : Life) : Thread → Bool
  | .ingress => s.ingress == .done
  | .worker => s.worker == .done
  | .monitor => s.monitor == .done

/-- Whether `main` is still to create the thread. -/
def MainPc.before : MainPc → Thread → Bool
  | .loadConfig, _ | .loggerInit, _ | .storageOpen, _ | .register, _ | .initAll, _ | .ringInit, _
  | .watchdogInit, _ | .setRunning, _ | .createIngress, _ => true
  | .createWorker, t => t == .worker || t == .monitor
  | .createMonitor, t => t == .monitor
  | _, _ => false

def MainPc.code : MainPc → Option Int
  | .exited code => some code
  | _ => none

/-- Where the threads of a state are. -/
structure ThreadsAt (s : Life) (status : Thread → Status) : Prop where
  running : ∀ t, s.main.runs t = true → status t = if doneAt s t then .finished else .alive
  idle : ∀ t, s.main.runs t = false → status t = .absent ∨ status t = .joined
  fresh : ∀ t, s.main.before t = true → status t = .absent

/-- The log goes through, and the book is then that of the state. -/
def Booked (s : Life) : Prop :=
  ∃ status, run (check threads shared) (bookStart Resource Thread) s.log =
    some ⟨heldAt s, status, s.main.code⟩ ∧ ThreadsAt s status

/-- A step that moves no thread across its creation, its end or its join. -/
structure SameThreads (s s' : Life) : Prop where
  runs : ∀ t, s'.main.runs t = s.main.runs t
  done : ∀ t, s.main.runs t = true → doneAt s' t = doneAt s t
  before : ∀ t, s'.main.before t = true → s.main.before t = true

theorem ThreadsAt.same {s s' : Life} {status : Thread → Status} (h : ThreadsAt s status)
    (hs : SameThreads s s') : ThreadsAt s' status where
  running t ht := by
    rw [hs.runs] at ht
    rw [hs.done t ht]
    exact h.running t ht
  idle t ht := by
    rw [hs.runs] at ht
    exact h.idle t ht
  fresh t ht := h.fresh t (hs.before t ht)

/-- A step that moves one thread across its creation, its end or its join. -/
structure OthersSame (t : Thread) (s s' : Life) : Prop where
  runs : ∀ u, u ≠ t → s'.main.runs u = s.main.runs u
  done : ∀ u, u ≠ t → doneAt s' u = doneAt s u
  before : ∀ u, u ≠ t → s'.main.before u = true → s.main.before u = true
  past : s'.main.before t = false

theorem ThreadsAt.update {s s' : Life} {status : Thread → Status} {t : Thread} {now : Status}
    (h : ThreadsAt s status) (ho : OthersSame t s s')
    (hruns : s'.main.runs t = true → now = if doneAt s' t then .finished else .alive)
    (hidle : s'.main.runs t = false → now = .absent ∨ now = .joined) :
    ThreadsAt s' (Function.update status t now) where
  running u hu := by
    by_cases htu : u = t
    · subst htu
      rw [Function.update_self]
      exact hruns hu
    · rw [ho.runs u htu] at hu
      rw [Function.update_of_ne htu, ho.done u htu]
      exact h.running u hu
  idle u hu := by
    by_cases htu : u = t
    · subst htu
      rw [Function.update_self]
      exact hidle hu
    · rw [ho.runs u htu] at hu
      rw [Function.update_of_ne htu]
      exact h.idle u hu
  fresh u hu := by
    by_cases htu : u = t
    · subst htu
      rw [ho.past] at hu
      cases hu
    · rw [Function.update_of_ne htu]
      exact h.fresh u (ho.before u htu hu)

/-- No thread is about when `main` runs none. -/
theorem ThreadsAt.alone {s : Life} {status : Thread → Status} (h : ThreadsAt s status)
    (hrun : ∀ t, s.main.runs t = false) (held : Resource → Bool) (code : Option Int) :
    Book.alone threads (⟨held, status, code⟩ : Book Resource Thread) = true := by
  unfold Book.alone
  rw [List.all_eq_true]
  intro t _
  rcases h.idle t (hrun t) with ht | ht
  · simp [ht]
  · simp [ht]

/-! ## One event -/

section
variable {s s' : Life} (h : Booked s)

include h in
theorem Booked.did {event : LifeEvent} (after : (Thread → Status) → Thread → Status)
    (hlog : s'.log = s.log ++ [event])
    (hcheck : ∀ status, ThreadsAt s status →
      check threads shared ⟨heldAt s, status, s.main.code⟩ event =
        some ⟨heldAt s', after status, s'.main.code⟩ ∧ ThreadsAt s' (after status)) :
    Booked s' := by
  obtain ⟨status, hrun, hthreads⟩ := h
  obtain ⟨hevent, hthreads'⟩ := hcheck status hthreads
  refine ⟨after status, ?_, hthreads'⟩
  rw [hlog, run_append, hrun]
  simp only [Option.bind_some, run, hevent]

include h in
theorem Booked.quiet (hlog : s'.log = s.log) (hheld : heldAt s' = heldAt s)
    (hcode : s'.main.code = s.main.code) (hsame : SameThreads s s') : Booked s' := by
  obtain ⟨status, hrun, hthreads⟩ := h
  refine ⟨status, ?_, hthreads.same hsame⟩
  rw [hlog, hheld, hcode, hrun]

include h in
theorem Booked.opens (r : Resource) (hlog : s'.log = s.log ++ [.opened r])
    (hheld : heldAt s r = false ∧ heldAt s' = Function.update (heldAt s) r true)
    (hcode : s.main.code = none ∧ s'.main.code = none) (hsame : SameThreads s s') :
    Booked s' := by
  refine h.did id hlog ?_
  intro status hthreads
  refine ⟨?_, hthreads.same hsame⟩
  simp [check, hcode.1, hcode.2, hheld.1, hheld.2]

include h in
theorem Booked.closes (r : Resource) (hlog : s'.log = s.log ++ [.closed r])
    (hheld : heldAt s r = true ∧ heldAt s' = Function.update (heldAt s) r false)
    (halone : shared r = true → ∀ t, s.main.runs t = false)
    (hcode : s.main.code = none ∧ s'.main.code = none) (hsame : SameThreads s s') :
    Booked s' := by
  refine h.did id hlog ?_
  intro status hthreads
  refine ⟨?_, hthreads.same hsame⟩
  have hok : shared r = false ∨
      Book.alone threads (⟨heldAt s, status, none⟩ : Book Resource Thread) = true := by
    cases hshared : shared r with
    | false => exact Or.inl rfl
    | true => exact Or.inr (hthreads.alone (halone hshared) _ _)
  simp [check, hcode.1, hcode.2, hheld.1, hheld.2, hok]

include h in
theorem Booked.uses (t : Option Thread) (r : Resource) (hheld : heldAt s r = true)
    (halive : ∀ u, t = some u → s.main.runs u = true ∧ doneAt s u = false)
    (hcode : s.main.code = none) : Booked (s.did [.used t r]) := by
  refine h.did id rfl ?_
  intro status hthreads
  refine ⟨?_, ⟨hthreads.running, hthreads.idle, hthreads.fresh⟩⟩
  have hok : (t.map status).all (· == .alive) = true := by
    cases t with
    | none => rfl
    | some u =>
      obtain ⟨hruns, hdone⟩ := halive u rfl
      simp [hthreads.running u hruns, hdone]
  have hsame : heldAt (s.did [.used t r]) = heldAt s := rfl
  have hmain : (s.did [.used t r]).main = s.main := rfl
  simp [check, hsame, hmain, hcode, hheld, hok]

include h in
theorem Booked.creates (t : Thread) (hlog : s'.log = s.log ++ [.created t])
    (hheld : heldAt s' = heldAt s) (hcode : s.main.code = none ∧ s'.main.code = none)
    (hothers : OthersSame t s s') (hbefore : s.main.before t = true)
    (hruns : s'.main.runs t = true) (hdone : doneAt s' t = false) : Booked s' := by
  refine h.did (fun status => Function.update status t .alive) hlog ?_
  intro status hthreads
  refine ⟨?_, hthreads.update hothers ?_ ?_⟩
  · simp [check, hcode.1, hcode.2, hheld, hthreads.fresh t hbefore]
  · intro _
    rw [hdone]
    rfl
  · intro hno
    rw [hruns] at hno
    cases hno

include h in
theorem Booked.finishes (t : Thread) (hlog : s'.log = s.log ++ [.finished t])
    (hheld : heldAt s' = heldAt s) (hcode : s.main.code = none ∧ s'.main.code = none)
    (hothers : OthersSame t s s') (hruns : s.main.runs t = true ∧ s'.main.runs t = true)
    (hdone : doneAt s t = false ∧ doneAt s' t = true) : Booked s' := by
  refine h.did (fun status => Function.update status t .finished) hlog ?_
  intro status hthreads
  refine ⟨?_, hthreads.update hothers ?_ ?_⟩
  · simp [check, hcode.1, hcode.2, hheld, hthreads.running t hruns.1, hdone.1]
  · intro _
    rw [hdone.2]
    rfl
  · intro hno
    rw [hruns.2] at hno
    cases hno

include h in
theorem Booked.joins (t : Thread) (hlog : s'.log = s.log ++ [.joined t])
    (hheld : heldAt s' = heldAt s) (hcode : s.main.code = none ∧ s'.main.code = none)
    (hothers : OthersSame t s s') (hruns : s.main.runs t = true ∧ s'.main.runs t = false)
    (hdone : doneAt s t = true) : Booked s' := by
  refine h.did (fun status => Function.update status t .joined) hlog ?_
  intro status hthreads
  refine ⟨?_, hthreads.update hothers ?_ ?_⟩
  · simp [check, hcode.1, hcode.2, hheld, hthreads.running t hruns.1, hdone]
  · intro hyes
    rw [hruns.2] at hyes
    cases hyes
  · intro _
    exact Or.inr rfl

include h in
theorem Booked.returns (code : Int) (hlog : s'.log = s.log ++ [.returned code])
    (hheld : heldAt s' = heldAt s) (hcode : s.main.code = none ∧ s'.main.code = some code)
    (halone : ∀ t, s.main.runs t = false) (hsame : SameThreads s s') : Booked s' := by
  refine h.did id hlog ?_
  intro status hthreads
  refine ⟨?_, hthreads.same hsame⟩
  simp [check, hcode.1, hcode.2, hheld, hthreads.alone halone]

end

/-! ## The steps of `main` -/

/-- `main` has the same threads in both places, and has not gone back. -/
def sameMain (pc pc' : MainPc) : Bool :=
  threads.all fun t => pc'.runs t == pc.runs t && (!pc'.before t || pc.before t)

theorem sameMain_spec {pc pc' : MainPc} (h : sameMain pc pc' = true) (t : Thread) :
    pc'.runs t = pc.runs t ∧ (pc'.before t = true → pc.before t = true) := by
  have ht : (pc'.runs t == pc.runs t && (!pc'.before t || pc.before t)) = true := by
    apply List.all_eq_true.mp h t
    cases t <;> decide
  simp only [Bool.and_eq_true, beq_iff_eq, Bool.or_eq_true, Bool.not_eq_true'] at ht
  refine ⟨ht.1, fun hb => ?_⟩
  rcases ht.2 with hno | hyes
  · rw [hno] at hb
    cases hb
  · exact hyes

theorem sameThreads_of_main {s s' : Life} (h : sameMain s.main s'.main = true)
    (hi : s'.ingress = s.ingress) (hw : s'.worker = s.worker) (hm : s'.monitor = s.monitor) :
    SameThreads s s' where
  runs t := (sameMain_spec h t).1
  done t _ := by cases t <;> simp [doneAt, hi, hw, hm]
  before t := (sameMain_spec h t).2

/-- `main` runs no thread. -/
def noThreads (pc : MainPc) : Bool := threads.all fun t => !pc.runs t

theorem noThreads_spec {pc : MainPc} (h : noThreads pc = true) (t : Thread) :
    pc.runs t = false := by
  have ht : (!pc.runs t) = true := by
    apply List.all_eq_true.mp h t
    cases t <;> decide
  simpa using ht

/-- The same for all threads but one, which is past its creation. -/
def othersMain (t : Thread) (pc pc' : MainPc) : Bool :=
  !pc'.before t && threads.all fun u =>
    u == t || (pc'.runs u == pc.runs u && (!pc'.before u || pc.before u))

theorem othersSame_of_main {s s' : Life} {t : Thread} (h : othersMain t s.main s'.main = true)
    (hi : s'.ingress = s.ingress) (hw : s'.worker = s.worker) (hm : s'.monitor = s.monitor) :
    OthersSame t s s' := by
  obtain ⟨hpast, hall⟩ := Bool.and_eq_true_iff.mp h
  have hu : ∀ u, u ≠ t → s'.main.runs u = s.main.runs u ∧
      (s'.main.before u = true → s.main.before u = true) := by
    intro u hut
    have hmem : u ∈ threads := by cases u <;> decide
    have hboth := List.all_eq_true.mp hall u hmem
    simp only [Bool.or_eq_true, beq_iff_eq, hut, false_or, Bool.and_eq_true,
      Bool.not_eq_true'] at hboth
    refine ⟨hboth.1, fun hb => ?_⟩
    rcases hboth.2 with hno | hyes
    · rw [hno] at hb
      cases hb
    · exact hyes
  refine ⟨fun u hut => (hu u hut).1, ?_, fun u hut => (hu u hut).2, by simpa using hpast⟩
  intro u _
  cases u <;> simp [doneAt, hi, hw, hm]

/-- The parts of `main`. -/
inductive MainPhase where
  | init | run | stop | destroy

def MainPc.phase : MainPc → MainPhase
  | .loadConfig | .loggerInit | .storageOpen | .register | .initAll | .ringInit
  | .watchdogInit => .init
  | .setRunning | .createIngress | .createWorker | .createMonitor | .unwindIngress _
  | .unwindWorker => .run
  | .notifyReady | .waitExit | .clearRunning | .joinIngress | .joinWorker | .joinMonitor
  | .sessionShutdown | .watchdogShutdown => .stop
  | .shutdownAll _ | .ringDestroy _ | .storageClose _ | .loggerShutdown _ | .exited _ => .destroy

/-- The value `main` is about to return, once it has begun to close what it has. -/
def MainPc.coded : MainPc → Option Int
  | .shutdownAll code | .ringDestroy code | .storageClose code | .loggerShutdown code
  | .exited code => some code
  | _ => none

/-- Whether `main` has seen the request to exit. -/
def MainPc.asked : MainPc → Bool
  | .clearRunning | .joinIngress | .joinWorker | .joinMonitor | .sessionShutdown
  | .watchdogShutdown => true
  | _ => false

/-- What holds of the descriptors and the threads besides the log. -/
structure Sane (s : Life) : Prop where
  logger : s.main = .loadConfig ∨ s.main = .loggerInit ∨ s.main.code ≠ none → s.logger = false
  init : s.main.phase = .init → s.notify = false ∧ s.socket = false
  ingress : s.main.before .ingress = true → s.ingress = .check
  worker : s.main.before .worker = true → s.worker = .check ∧ s.socket = false
  monitor : s.main.before .monitor = true → s.monitor = .epollCreate
  idle : s.main.runs .worker = false → s.worker = .check ∨ s.worker = .done
  reactor : s.main.runs .monitor = false → s.monitor = .epollCreate ∨ s.monitor = .done
  asked : s.main.asked = true ∨ s.main.coded = some 0 → s.g_exit_requested = true
  closed : (s.main = .watchdogShutdown → s.socket = false) ∧
    (s.main.coded = some 0 → s.notify = false ∧ s.socket = false)
  coded : ∀ code, s.main.coded = some code → code = 0 ∨ code = 1

theorem Sane.fresh {s : Life} (h : Sane s) (t : Thread) (ht : s.main.before t = true) :
    doneAt s t = false := by
  cases t with
  | ingress => simp [doneAt, h.ingress ht]
  | worker => simp [doneAt, (h.worker ht).1]
  | monitor => simp [doneAt, h.monitor ht]

/-- `main` up to the end of `gateway_app_init`. -/
theorem mainStep_booked_init {s s' : Life} {ok : Bool} (h : Booked s) (hsane : Sane s)
    (hs : mainStep s ok = some s') (hphase : s.main.phase = .init) : Booked s' := by
  obtain ⟨main, ingress, worker, monitor, running, g_exit_requested, logger, notify, socket,
    log⟩ := s
  cases main with
  | loadConfig =>
    cases ok with
    | false =>
      cases hs
      refine h.returns 1 rfl ?_ ⟨rfl, rfl⟩ ?_ (sameThreads_of_main rfl rfl rfl rfl)
      · funext r
        cases r <;> rfl
      · intro t
        cases t <;> rfl
    | true =>
      cases hs
      refine h.quiet rfl ?_ rfl (sameThreads_of_main rfl rfl rfl rfl)
      funext r
      cases r <;> rfl
  | loggerInit =>
    cases ok with
    | false =>
      cases hs
      refine h.quiet rfl ?_ rfl (sameThreads_of_main rfl rfl rfl rfl)
      funext r
      cases r <;> rfl
    | true =>
      cases hs
      refine h.opens .logger rfl ⟨hsane.logger (Or.inr (Or.inl rfl)), ?_⟩ ⟨rfl, rfl⟩
        (sameThreads_of_main rfl rfl rfl rfl)
      funext r
      cases r <;> rfl
  | storageOpen =>
    cases ok with
    | false =>
      cases hs
      refine h.quiet rfl ?_ rfl (sameThreads_of_main rfl rfl rfl rfl)
      funext r
      cases r <;> rfl
    | true =>
      cases hs
      refine h.opens .storage rfl ⟨rfl, ?_⟩ ⟨rfl, rfl⟩ (sameThreads_of_main rfl rfl rfl rfl)
      funext r
      cases r <;> rfl
  | register =>
    cases ok with
    | false =>
      cases hs
      refine h.closes .storage rfl ⟨rfl, ?_⟩ (fun _ => noThreads_spec rfl) ⟨rfl, rfl⟩
        (sameThreads_of_main rfl rfl rfl rfl)
      funext r
      cases r <;> rfl
    | true =>
      cases hs
      refine h.quiet rfl ?_ rfl (sameThreads_of_main rfl rfl rfl rfl)
      funext r
      cases r <;> rfl
  | initAll =>
    cases hs
    refine h.opens .registry rfl ⟨rfl, ?_⟩ ⟨rfl, rfl⟩ (sameThreads_of_main rfl rfl rfl rfl)
    funext r
    cases r <;> rfl
  | ringInit =>
    cases ok with
    | false =>
      cases hs
      -- the plug-ins go first, the store second
      have hfirst : Booked ((Life.mk (.storageClose 1) ingress worker monitor running
          g_exit_requested logger notify socket log).did [.closed .registry]) := by
        refine h.closes .registry rfl ⟨rfl, ?_⟩ (fun _ => noThreads_spec rfl) ⟨rfl, rfl⟩
          (sameThreads_of_main rfl rfl rfl rfl)
        funext r
        cases r <;> rfl
      refine hfirst.closes .storage (by simp [Life.did]) ⟨rfl, ?_⟩ (fun _ => noThreads_spec rfl)
        ⟨rfl, rfl⟩ (sameThreads_of_main rfl rfl rfl rfl)
      funext r
      cases r <;> rfl
    | true =>
      cases hs
      refine h.opens .ring rfl ⟨rfl, ?_⟩ ⟨rfl, rfl⟩ (sameThreads_of_main rfl rfl rfl rfl)
      funext r
      cases r <;> rfl
  | watchdogInit =>
    cases ok with
    | false =>
      cases hs
      refine h.quiet rfl ?_ rfl (sameThreads_of_main rfl rfl rfl rfl)
      funext r
      cases r <;> rfl
    | true =>
      cases hs
      refine h.opens .notify rfl ⟨(hsane.init rfl).1, ?_⟩ ⟨rfl, rfl⟩
        (sameThreads_of_main rfl rfl rfl rfl)
      funext r
      cases r <;> rfl
  | _ => cases hphase

/-- `gateway_app_run`, with the joins of its error paths. -/
theorem mainStep_booked_run {s s' : Life} {ok : Bool} (h : Booked s) (hsane : Sane s)
    (hs : mainStep s ok = some s') (hphase : s.main.phase = .run) : Booked s' := by
  obtain ⟨main, ingress, worker, monitor, running, g_exit_requested, logger, notify, socket,
    log⟩ := s
  cases main with
  | setRunning =>
    cases hs
    refine h.quiet rfl ?_ rfl (sameThreads_of_main rfl rfl rfl rfl)
    funext r
    cases r <;> rfl
  | createIngress =>
    cases ok with
    | false =>
      cases hs
      refine h.quiet rfl ?_ rfl (sameThreads_of_main rfl rfl rfl rfl)
      funext r
      cases r <;> rfl
    | true =>
      cases hs
      refine h.creates .ingress rfl ?_ ⟨rfl, rfl⟩ (othersSame_of_main rfl rfl rfl rfl) rfl rfl
        (hsane.fresh .ingress rfl)
      funext r
      cases r <;> rfl
  | createWorker =>
    cases ok with
    | false =>
      cases hs
      refine h.quiet rfl ?_ rfl (sameThreads_of_main rfl rfl rfl rfl)
      funext r
      cases r <;> rfl
    | true =>
      cases hs
      refine h.creates .worker rfl ?_ ⟨rfl, rfl⟩ (othersSame_of_main rfl rfl rfl rfl) rfl rfl
        (hsane.fresh .worker rfl)
      funext r
      cases r <;> rfl
  | createMonitor =>
    cases ok with
    | false =>
      cases hs
      refine h.quiet rfl ?_ rfl (sameThreads_of_main rfl rfl rfl rfl)
      funext r
      cases r <;> rfl
    | true =>
      cases hs
      refine h.creates .monitor rfl ?_ ⟨rfl, rfl⟩ (othersSame_of_main rfl rfl rfl rfl) rfl rfl
        (hsane.fresh .monitor rfl)
      funext r
      cases r <;> rfl
  | unwindIngress both =>
    cases both with
    | false =>
      simp only [mainStep] at hs
      split at hs
      case isFalse => cases hs
      case isTrue hdone =>
        cases hs
        refine h.joins .ingress rfl ?_ ⟨rfl, rfl⟩ (othersSame_of_main rfl rfl rfl rfl) ⟨rfl, rfl⟩ ?_
        · funext r
          cases r <;> rfl
        · simpa [doneAt] using hdone
    | true =>
      simp only [mainStep] at hs
      split at hs
      case isFalse => cases hs
      case isTrue hdone =>
        cases hs
        refine h.joins .ingress rfl ?_ ⟨rfl, rfl⟩ (othersSame_of_main rfl rfl rfl rfl) ⟨rfl, rfl⟩ ?_
        · funext r
          cases r <;> rfl
        · simpa [doneAt] using hdone
  | unwindWorker =>
    simp only [mainStep] at hs
    split at hs
    case isFalse => cases hs
    case isTrue hdone =>
      cases hs
      refine h.joins .worker rfl ?_ ⟨rfl, rfl⟩ (othersSame_of_main rfl rfl rfl rfl) ⟨rfl, rfl⟩ ?_
      · funext r
        cases r <;> rfl
      · simpa [doneAt] using hdone
  | _ => cases hphase

/-- The wait for a signal and `gateway_app_stop`. -/
theorem mainStep_booked_stop {s s' : Life} {ok : Bool} (h : Booked s)
    (hs : mainStep s ok = some s') (hphase : s.main.phase = .stop) : Booked s' := by
  obtain ⟨main, ingress, worker, monitor, running, g_exit_requested, logger, notify, socket,
    log⟩ := s
  cases main with
  | notifyReady =>
    cases notify with
    | false =>
      cases hs
      refine h.quiet (List.append_nil _) ?_ rfl (sameThreads_of_main rfl rfl rfl rfl)
      funext r
      cases r <;> rfl
    | true =>
      cases hs
      refine (h.uses none .notify rfl (fun u hu => by cases hu) rfl).quiet rfl ?_ rfl
        (sameThreads_of_main rfl rfl rfl rfl)
      funext r
      cases r <;> rfl
  | waitExit =>
    cases g_exit_requested with
    | false =>
      cases hs
      exact h
    | true =>
      cases hs
      refine h.quiet rfl ?_ rfl (sameThreads_of_main rfl rfl rfl rfl)
      funext r
      cases r <;> rfl
  | clearRunning =>
    cases hs
    refine h.quiet rfl ?_ rfl (sameThreads_of_main rfl rfl rfl rfl)
    funext r
    cases r <;> rfl
  | joinIngress =>
    simp only [mainStep] at hs
    split at hs
    case isFalse => cases hs
    case isTrue hdone =>
      cases hs
      refine h.joins .ingress rfl ?_ ⟨rfl, rfl⟩ (othersSame_of_main rfl rfl rfl rfl) ⟨rfl, rfl⟩ ?_
      · funext r
        cases r <;> rfl
      · simpa [doneAt] using hdone
  | joinWorker =>
    simp only [mainStep] at hs
    split at hs
    case isFalse => cases hs
    case isTrue hdone =>
      cases hs
      refine h.joins .worker rfl ?_ ⟨rfl, rfl⟩ (othersSame_of_main rfl rfl rfl rfl) ⟨rfl, rfl⟩ ?_
      · funext r
        cases r <;> rfl
      · simpa [doneAt] using hdone
  | joinMonitor =>
    simp only [mainStep] at hs
    split at hs
    case isFalse => cases hs
    case isTrue hdone =>
      cases hs
      refine h.joins .monitor rfl ?_ ⟨rfl, rfl⟩ (othersSame_of_main rfl rfl rfl rfl) ⟨rfl, rfl⟩ ?_
      · funext r
        cases r <;> rfl
      · simpa [doneAt] using hdone
  | sessionShutdown =>
    cases socket with
    | false =>
      cases hs
      refine h.quiet (List.append_nil _) ?_ rfl (sameThreads_of_main rfl rfl rfl rfl)
      funext r
      cases r <;> rfl
    | true =>
      cases hs
      refine h.closes .socket rfl ⟨rfl, ?_⟩ (fun _ => noThreads_spec rfl) ⟨rfl, rfl⟩
        (sameThreads_of_main rfl rfl rfl rfl)
      funext r
      cases r <;> rfl
  | watchdogShutdown =>
    cases notify with
    | false =>
      cases hs
      refine h.quiet (List.append_nil _) ?_ rfl (sameThreads_of_main rfl rfl rfl rfl)
      funext r
      cases r <;> rfl
    | true =>
      cases hs
      refine h.closes .notify rfl ⟨rfl, ?_⟩ (fun _ => noThreads_spec rfl) ⟨rfl, rfl⟩
        (sameThreads_of_main rfl rfl rfl rfl)
      funext r
      cases r <;> rfl
  | _ => cases hphase

/-- `gateway_app_destroy` and the end of `main`. -/
theorem mainStep_booked_destroy {s s' : Life} {ok : Bool} (h : Booked s)
    (hs : mainStep s ok = some s') (hphase : s.main.phase = .destroy) : Booked s' := by
  obtain ⟨main, ingress, worker, monitor, running, g_exit_requested, logger, notify, socket,
    log⟩ := s
  cases main with
  | shutdownAll code =>
    cases hs
    refine h.closes .registry rfl ⟨rfl, ?_⟩ (fun _ => noThreads_spec rfl) ⟨rfl, rfl⟩
      (sameThreads_of_main rfl rfl rfl rfl)
    funext r
    cases r <;> rfl
  | ringDestroy code =>
    cases hs
    refine h.closes .ring rfl ⟨rfl, ?_⟩ (fun _ => noThreads_spec rfl) ⟨rfl, rfl⟩
      (sameThreads_of_main rfl rfl rfl rfl)
    funext r
    cases r <;> rfl
  | storageClose code =>
    cases hs
    refine h.closes .storage rfl ⟨rfl, ?_⟩ (fun _ => noThreads_spec rfl) ⟨rfl, rfl⟩
      (sameThreads_of_main rfl rfl rfl rfl)
    funext r
    cases r <;> rfl
  | loggerShutdown code =>
    have hclosed : Booked ((Life.mk (.loggerShutdown code) ingress worker monitor running
        g_exit_requested false notify socket log).did (onlyIf logger (.closed .logger))) := by
      cases logger with
      | false =>
        refine h.quiet (List.append_nil _) ?_ rfl (sameThreads_of_main rfl rfl rfl rfl)
        funext r
        cases r <;> rfl
      | true =>
        refine h.closes .logger rfl ⟨rfl, ?_⟩ (fun _ => noThreads_spec rfl) ⟨rfl, rfl⟩
          (sameThreads_of_main rfl rfl rfl rfl)
        funext r
        cases r <;> rfl
    cases hs
    refine hclosed.returns code rfl ?_ ⟨rfl, rfl⟩ (noThreads_spec rfl)
      (sameThreads_of_main rfl rfl rfl rfl)
    funext r
    cases r <;> rfl
  | exited code => cases hs
  | _ => cases hphase

theorem mainStep_booked {s s' : Life} {ok : Bool} (h : Booked s) (hsane : Sane s)
    (hs : mainStep s ok = some s') : Booked s' := by
  cases hphase : s.main.phase with
  | init => exact mainStep_booked_init h hsane hs hphase
  | run => exact mainStep_booked_run h hsane hs hphase
  | stop => exact mainStep_booked_stop h hs hphase
  | destroy => exact mainStep_booked_destroy h hs hphase

/-! ## The steps of the threads -/

/-- While `main` has a thread, everything the thread uses is open. -/
theorem runs_spec {pc : MainPc} {t : Thread} (h : pc.runs t = true) :
    pc.holds .storage = true ∧ pc.holds .registry = true ∧ pc.holds .ring = true ∧
      pc.code = none ∧ pc.before t = false := by
  cases pc <;> cases t <;> first | exact ⟨rfl, rfl, rfl, rfl, rfl⟩ | cases h

theorem sameThreads_of {s s' : Life} (hmain : s'.main = s.main)
    (hdone : ∀ t, doneAt s' t = doneAt s t) : SameThreads s s' where
  runs t := by rw [hmain]
  done t _ := hdone t
  before t h := by rwa [hmain] at h

theorem othersSame_of {s s' : Life} {t : Thread} (hruns : s.main.runs t = true)
    (hmain : s'.main = s.main) (hdone : ∀ u, u ≠ t → doneAt s' u = doneAt s u) :
    OthersSame t s s' where
  runs u _ := by rw [hmain]
  done := hdone
  before u _ h := by rwa [hmain] at h
  past := by
    rw [hmain]
    exact (runs_spec hruns).2.2.2.2

theorem Booked.uses_all (t : Thread) (rs : List Resource) : ∀ {s : Life}, Booked s →
    s.main.runs t = true → doneAt s t = false → (∀ r ∈ rs, heldAt s r = true) →
    Booked (s.did (rs.map fun r => .used (some t) r)) := by
  induction rs with
  | nil =>
    intro s h _ _ _
    exact h.quiet (List.append_nil _) rfl rfl (sameThreads_of rfl fun u => rfl)
  | cons r rs ih =>
    intro s h hruns hdone hheld
    have halive : ∀ u, some t = some u → s.main.runs u = true ∧ doneAt s u = false := by
      intro u hu
      cases hu
      exact ⟨hruns, hdone⟩
    have hfirst := h.uses (some t) r (hheld r List.mem_cons_self) halive (runs_spec hruns).2.2.2.1
    have hrest := ih hfirst hruns hdone fun r' hr' => hheld r' (List.mem_cons_of_mem r hr')
    refine hrest.quiet ?_ rfl rfl (sameThreads_of rfl fun u => rfl)
    simp [Life.did]

/-- A step in which a thread uses some resources and moves on. -/
theorem Booked.works {s s' : Life} (t : Thread) (rs : List Resource) (h : Booked s)
    (hruns : s.main.runs t = true) (hdone : doneAt s t = false)
    (hlog : s'.log = s.log ++ rs.map fun r => .used (some t) r)
    (hheld : ∀ r ∈ rs, heldAt s r = true) (hsame : heldAt s' = heldAt s)
    (hmain : s'.main = s.main) (hthreads : ∀ u, doneAt s' u = doneAt s u) : Booked s' := by
  refine (Booked.uses_all t rs h hruns hdone hheld).quiet hlog hsame ?_
    (sameThreads_of hmain hthreads)
  rw [hmain]
  rfl

theorem ingressStep_booked {s s' : Life} {n : Nat} (h : Booked s)
    (hruns : s.main.runs .ingress = true) (hs : ingressStep s n = some s') : Booked s' := by
  obtain ⟨-, hregistry, hring, hcode, -⟩ := runs_spec hruns
  obtain ⟨main, ingress, worker, monitor, running, g_exit_requested, logger, notify, socket,
    log⟩ := s
  cases ingress with
  | check =>
    cases running with
    | false =>
      cases hs
      refine h.finishes .ingress rfl rfl ⟨hcode, hcode⟩ (othersSame_of hruns rfl ?_)
        ⟨hruns, hruns⟩ ⟨rfl, rfl⟩
      intro u hu
      cases u <;> first | rfl | exact absurd rfl hu
    | true =>
      cases hs
      refine h.works .ingress [] hruns rfl (List.append_nil _).symm (by simp) rfl rfl ?_
      intro u
      cases u <;> rfl
  | poll =>
    simp only [ingressStep] at hs
    split at hs
    case isFalse => cases hs
    case isTrue =>
      cases hs
      refine h.works .ingress [.registry] hruns rfl rfl (by simpa [heldAt] using hregistry)
        rfl rfl ?_
      intro u
      cases u <;> rfl
  | push left =>
    cases left with
    | zero =>
      cases hs
      refine h.works .ingress [] hruns rfl (List.append_nil _).symm (by simp) rfl rfl ?_
      intro u
      cases u <;> rfl
    | succ left =>
      cases hs
      refine h.works .ingress [.ring] hruns rfl rfl (by simpa [heldAt] using hring) rfl rfl ?_
      intro u
      cases u <;> rfl
  | gauges =>
    cases hs
    refine h.works .ingress [.ring] hruns rfl rfl (by simpa [heldAt] using hring) rfl rfl ?_
    intro u
    cases u <;> rfl
  | done => cases hs

/-- A call on the session leaves the log in order, whatever becomes of the socket. -/
theorem Booked.session {s : Life} (h : Booked s) (t : Thread) (after : Bool)
    (hruns : s.main.runs t = true) (hdone : doneAt s t = false) :
    Booked (sessionCall s t after) := by
  have hcode := (runs_spec hruns).2.2.2.1
  obtain ⟨main, ingress, worker, monitor, running, g_exit_requested, logger, notify, socket,
    log⟩ := s
  have hused : socket = true → Booked ((Life.mk main ingress worker monitor running
      g_exit_requested logger notify socket log).did [.used (some t) .socket]) := by
    intro hsocket
    exact Booked.uses_all t [.socket] h hruns hdone (by simpa [heldAt] using hsocket)
  cases socket with
  | false =>
    cases after with
    | false => exact h.quiet (List.append_nil _) rfl rfl (sameThreads_of rfl fun u => rfl)
    | true =>
      refine h.opens .socket rfl ⟨rfl, ?_⟩ ⟨hcode, hcode⟩ (sameThreads_of rfl fun u => rfl)
      funext r
      cases r <;> rfl
  | true =>
    cases after with
    | false =>
      refine (hused rfl).closes .socket (by simp [sessionCall, Life.did, socketEvents])
        ⟨rfl, ?_⟩ (fun hno => by cases hno) ⟨hcode, hcode⟩ (sameThreads_of rfl fun u => rfl)
      funext r
      cases r <;> rfl
    | true => exact hused rfl

theorem workerStep_booked {s s' : Life} {ok after : Bool} (h : Booked s)
    (hruns : s.main.runs .worker = true) (hs : workerStep s ok after = some s') : Booked s' := by
  obtain ⟨hstorage, hregistry, hring, hcode, -⟩ := runs_spec hruns
  obtain ⟨main, ingress, worker, monitor, running, g_exit_requested, logger, notify, socket,
    log⟩ := s
  cases worker with
  | check =>
    cases running with
    | false =>
      cases hs
      refine h.finishes .worker rfl rfl ⟨hcode, hcode⟩ (othersSame_of hruns rfl ?_)
        ⟨hruns, hruns⟩ ⟨rfl, rfl⟩
      intro u hu
      cases u <;> first | rfl | exact absurd rfl hu
    | true =>
      cases hs
      refine h.works .worker [] hruns rfl (List.append_nil _).symm (by simp) rfl rfl ?_
      intro u
      cases u <;> rfl
  | pop =>
    cases hs
    refine h.works .worker [.ring] hruns rfl rfl (by simpa [heldAt] using hring) rfl rfl ?_
    intro u
    cases ok <;> cases u <;> rfl
  | store =>
    cases hs
    refine h.works .worker [.storage] hruns rfl rfl (by simpa [heldAt] using hstorage) rfl rfl ?_
    intro u
    cases u <;> rfl
  | engine =>
    cases hs
    refine h.works .worker [] hruns rfl (List.append_nil _).symm (by simp) rfl rfl ?_
    intro u
    cases ok <;> cases u <;> rfl
  | alarm =>
    cases hs
    refine h.works .worker [.storage] hruns rfl rfl (by simpa [heldAt] using hstorage) rfl rfl ?_
    intro u
    cases u <;> rfl
  | submit =>
    cases hs
    refine h.works .worker [] hruns rfl (List.append_nil _).symm (by simp) rfl rfl ?_
    intro u
    cases ok <;> cases u <;> rfl
  | tick =>
    cases hs
    refine h.works .worker [.registry, .storage] hruns rfl rfl ?_ rfl rfl ?_
    · simpa [heldAt] using ⟨hregistry, hstorage⟩
    · intro u
      cases u <;> rfl
  | publish =>
    simp only [workerStep] at hs
    split at hs
    case isTrue => cases hs
    case isFalse =>
      cases hs
      refine Booked.session ?_ .worker after hruns rfl
      refine h.works .worker [] hruns rfl (List.append_nil _).symm (by simp) rfl rfl ?_
      intro u
      cases u <;> rfl
  | publishing =>
    cases hs
    refine Booked.session ?_ .worker after hruns ?_
    · refine h.works .worker [] hruns rfl (List.append_nil _).symm (by simp) rfl rfl ?_
      intro u
      cases ok <;> cases u <;> rfl
    · cases ok <;> rfl
  | mark =>
    cases hs
    refine h.works .worker [.storage] hruns rfl rfl (by simpa [heldAt] using hstorage) rfl rfl ?_
    intro u
    cases u <;> rfl
  | gauges =>
    cases hs
    refine h.works .worker [.ring, .storage] hruns rfl rfl ?_ rfl rfl ?_
    · simpa [heldAt] using ⟨hring, hstorage⟩
    · intro u
      cases u <;> rfl
  | done => cases hs

/-- The monitor moves on with the descriptors it has. -/
theorem Booked.monitor_moves {s : Life} (h : Booked s) (pc : MonitorPc)
    (hholds : ∀ r, pc.holds r = s.monitor.holds r) (hdone : doneAt s .monitor = false)
    (hpc : (pc == .done) = false) : Booked { s with monitor := pc } := by
  refine h.quiet rfl ?_ rfl (sameThreads_of rfl ?_)
  · funext r
    cases r with
    | epoll => exact hholds .epoll
    | timer => exact hholds .timer
    | _ => rfl
  · intro u
    cases u with
    | ingress => rfl
    | worker => rfl
    | monitor => exact hpc.trans hdone.symm

/-- The two descriptors of the reactor are closed, and the monitor goes on without them. -/
theorem Booked.closes_reactor {s : Life} (h : Booked s)
    (hruns : s.main.runs .monitor = true) (hdone : doneAt s .monitor = false)
    (hepoll : s.monitor.holds .epoll = true) (htimer : s.monitor.holds .timer = true) :
    Booked ({ s with monitor := .fallback }.did [.closed .timer, .closed .epoll]) := by
  have hcode := (runs_spec hruns).2.2.2.1
  -- between the two calls only the first descriptor is left
  have hfirst : Booked ({ s with monitor := .timerCreate }.did [.closed .timer]) := by
    refine h.closes .timer rfl ⟨htimer, ?_⟩ (fun hno => by cases hno) ⟨hcode, hcode⟩
      (sameThreads_of rfl ?_)
    · funext r
      cases r with
      | epoll => exact hepoll.symm
      | _ => rfl
    · intro u
      cases u with
      | ingress => rfl
      | worker => rfl
      | monitor => exact hdone.symm
  refine hfirst.closes .epoll (by simp [Life.did]) ⟨rfl, ?_⟩ (fun hno => by cases hno)
    ⟨hcode, hcode⟩ (sameThreads_of rfl fun u => by cases u <;> rfl)
  funext r
  cases r <;> rfl

theorem callback_holds (reactor : Bool) (pc : TimerPc) (r : Resource) :
    (MonitorPc.callback reactor pc).holds r = (afterCallback reactor).holds r := by
  cases reactor <;> rfl

theorem timerStep_booked {s s' : Life} {answer : MonitorAnswer} {reactor after : Bool}
    {pc : TimerPc} (h : Booked s) (hruns : s.main.runs .monitor = true)
    (hpc : s.monitor = .callback reactor pc) (hs : timerStep s answer reactor after pc = some s') :
    Booked s' := by
  obtain ⟨hstorage, -, -, hcode, -⟩ := runs_spec hruns
  have hdone : doneAt s .monitor = false := by
    rw [doneAt, hpc]
    rfl
  have hback : Booked { s with monitor := afterCallback reactor } := by
    refine h.monitor_moves _ ?_ hdone (by cases reactor <;> rfl)
    intro r
    rw [hpc, callback_holds]
  have hnext : ∀ pc', Booked { s with monitor := .callback reactor pc' } := by
    intro pc'
    refine h.monitor_moves _ ?_ hdone rfl
    intro r
    rw [hpc, callback_holds, callback_holds]
  cases pc with
  | check =>
    cases hs
    split
    · exact hnext .alive
    · exact hback
  | alive =>
    cases hs
    by_cases hnotify : s.notify = true
    · rw [onlyIf, if_pos hnotify]
      exact Booked.uses_all .monitor [.notify] (hnext .fetch) hruns rfl
        (by simpa [heldAt] using hnotify)
    · rw [onlyIf, if_neg hnotify]
      exact (hnext .fetch).quiet (List.append_nil _) rfl rfl (sameThreads_of rfl fun u => rfl)
  | fetch =>
    cases hs
    exact Booked.uses_all .monitor [.storage] (hnext _) hruns rfl
      (by simpa [heldAt] using hstorage)
  | replay =>
    simp only [timerStep] at hs
    split at hs
    case isTrue => cases hs
    case isFalse =>
      cases hs
      exact (hnext .replaying).session .monitor after hruns rfl
  | replaying =>
    cases hs
    exact Booked.uses_all .monitor [.storage]
      ((hnext .ping).session .monitor after hruns rfl) hruns rfl
      (by simpa [heldAt, sessionCall, Life.did] using hstorage)
  | ping =>
    simp only [timerStep] at hs
    split at hs
    case isTrue => cases hs
    case isFalse =>
      cases hs
      exact hnext .pinging
  | pinging =>
    cases hs
    exact (hnext .pending).session .monitor _ hruns rfl
  | pending =>
    cases hs
    exact Booked.uses_all .monitor [.storage] (hnext .heartbeat) hruns rfl
      (by simpa [heldAt] using hstorage)
  | heartbeat =>
    simp only [timerStep] at hs
    split at hs
    case isTrue => cases hs
    case isFalse =>
      cases hs
      exact (hnext .beating).session .monitor after hruns rfl
  | beating =>
    cases hs
    exact hback.session .monitor after hruns (by cases reactor <;> rfl)

theorem monitorStep_booked {s s' : Life} {answer : MonitorAnswer} {after : Bool} (h : Booked s)
    (hruns : s.main.runs .monitor = true) (hs : monitorStep s answer after = some s') :
    Booked s' := by
  have hcode := (runs_spec hruns).2.2.2.1
  cases hpc : s.monitor with
  | epollCreate =>
    simp only [monitorStep, hpc] at hs
    split at hs
    · cases hs
      exact h.monitor_moves .fallback (by simp [hpc, MonitorPc.holds]) (by simp [doneAt, hpc]) rfl
    · cases hs
      refine h.opens .epoll rfl ⟨by simp [heldAt, hpc, MonitorPc.holds], ?_⟩ ⟨hcode, hcode⟩
        (sameThreads_of rfl ?_)
      · funext r
        cases r <;> simp [heldAt, hpc, MonitorPc.holds, Life.did]
      · intro u
        cases u <;> simp [doneAt, hpc, Life.did]
  | timerCreate =>
    simp only [monitorStep, hpc] at hs
    split at hs
    · cases hs
      refine h.closes .epoll rfl ⟨by simp [heldAt, hpc, MonitorPc.holds], ?_⟩
        (fun hno => by cases hno) ⟨hcode, hcode⟩ (sameThreads_of rfl ?_)
      · funext r
        cases r <;> simp [heldAt, hpc, MonitorPc.holds, Life.did]
      · intro u
        cases u <;> simp [doneAt, hpc, Life.did]
    · cases hs
      refine h.opens .timer rfl ⟨by simp [heldAt, hpc, MonitorPc.holds], ?_⟩ ⟨hcode, hcode⟩
        (sameThreads_of rfl ?_)
      · funext r
        cases r <;> simp [heldAt, hpc, MonitorPc.holds, Life.did]
      · intro u
        cases u <;> simp [doneAt, hpc, Life.did]
  | epollCtl =>
    have hdone : doneAt s .monitor = false := by simp [doneAt, hpc]
    have hused := Booked.uses_all .monitor [.epoll] h hruns hdone
      (by simp [heldAt, hpc, MonitorPc.holds])
    simp only [monitorStep, hpc] at hs
    split at hs
    · cases hs
      have hclosed := hused.closes_reactor hruns hdone
        (by simp [Life.did, hpc, MonitorPc.holds]) (by simp [Life.did, hpc, MonitorPc.holds])
      exact hclosed.quiet (by simp [Life.did]) rfl rfl (sameThreads_of rfl fun u => rfl)
    · cases hs
      exact hused.monitor_moves .addTimer (by simp [Life.did, hpc, MonitorPc.holds]) hdone rfl
  | addTimer =>
    have hdone : doneAt s .monitor = false := by simp [doneAt, hpc]
    simp only [monitorStep, hpc] at hs
    split at hs
    · cases hs
      exact h.closes_reactor hruns hdone (by simp [hpc, MonitorPc.holds])
        (by simp [hpc, MonitorPc.holds])
    · cases hs
      have hused := Booked.uses_all .monitor [.timer] h hruns hdone
        (by simp [heldAt, hpc, MonitorPc.holds])
      exact hused.monitor_moves .loop (by simp [Life.did, hpc, MonitorPc.holds]) hdone rfl
  | fallback =>
    have hdone : doneAt s .monitor = false := by simp [doneAt, hpc]
    simp only [monitorStep, hpc] at hs
    split at hs
    · cases hs
      exact h.monitor_moves _ (by simp [hpc, MonitorPc.holds]) hdone rfl
    · cases hs
      refine h.finishes .monitor rfl ?_ ⟨hcode, hcode⟩ (othersSame_of hruns rfl ?_)
        ⟨hruns, hruns⟩ ⟨hdone, rfl⟩
      · funext r
        cases r <;> simp [heldAt, hpc, MonitorPc.holds, Life.did]
      · intro u hu
        cases u <;> first | rfl | exact absurd rfl hu
  | loop =>
    have hdone : doneAt s .monitor = false := by simp [doneAt, hpc]
    simp only [monitorStep, hpc] at hs
    cases hs
    refine h.monitor_moves _ ?_ hdone (by split <;> rfl)
    intro r
    split <;> simp [hpc, MonitorPc.holds]
  | wait =>
    have hdone : doneAt s .monitor = false := by simp [doneAt, hpc]
    have hepoll : ∀ r ∈ [Resource.epoll], heldAt s r = true := by
      simp [heldAt, hpc, MonitorPc.holds]
    simp only [monitorStep, hpc] at hs
    cases answer with
    | fails =>
      cases hs
      exact (Booked.uses_all .monitor [.epoll] h hruns hdone hepoll).monitor_moves .destroy
        (by simp [Life.did, hpc, MonitorPc.holds]) hdone rfl
    | idle =>
      cases hs
      exact (Booked.uses_all .monitor [.epoll] h hruns hdone hepoll).monitor_moves .loop
        (by simp [Life.did, hpc, MonitorPc.holds]) hdone rfl
    | fires =>
      cases hs
      refine (Booked.uses_all .monitor [.epoll, .timer] h hruns hdone ?_).monitor_moves
        (.callback true .check) (by simp [Life.did, hpc, MonitorPc.holds]) hdone rfl
      simp [heldAt, hpc, MonitorPc.holds]
  | destroy =>
    have hdone : doneAt s .monitor = false := by simp [doneAt, hpc]
    simp only [monitorStep, hpc] at hs
    cases hs
    have hclosed := h.closes_reactor hruns hdone (by simp [hpc, MonitorPc.holds])
      (by simp [hpc, MonitorPc.holds])
    refine hclosed.finishes .monitor (by simp [Life.did]) ?_ ⟨hcode, hcode⟩
      (othersSame_of hruns rfl ?_) ⟨hruns, hruns⟩ ⟨rfl, rfl⟩
    · funext r
      cases r <;> rfl
    · intro u hu
      cases u <;> first | rfl | exact absurd rfl hu
  | callback reactor pc =>
    simp only [monitorStep, hpc] at hs
    exact timerStep_booked h hruns hpc hs
  | done =>
    simp only [monitorStep, hpc] at hs
    cases hs

end Lifecycle
end EdgeFlow
