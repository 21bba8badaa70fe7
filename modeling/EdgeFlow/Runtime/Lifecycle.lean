import EdgeFlow.Lib.Custody

/-!
# The life of the process (`src/main.c`, `src/runtime/app.c`, `src/core/reactor.c`,
# `src/platform/watchdog.c`)

`main` from its first line to its `return`, with the three threads it creates: what each of them
opens, uses and closes, at every step and on every error path. What the outside answers (an
`open` or a `pthread_create` that fails, a queue that is empty, a signal) is part of the label of a
step, and the interleaving is the list of labels.

The steps are cut where another thread could notice: at every load and store of `running`, at every
use of something shared, and where `session->lock` is taken and given back. A call on the session is
two steps, and the second need not come: its `connect`, `write` and `read` have no timeout of their
own. What a thread computes in between is modelled elsewhere. `log` is
what has been done so far, in the terms of `Lib/Custody`. A log line is no event: it goes to
`stderr` when there is no file.
-/

set_option autoImplicit false

namespace EdgeFlow
namespace Lifecycle

open Lib Lib.Custody

/-- What is opened and closed: `g_log_fp`, `app->storage`, the plug-ins between `init` and
    `shutdown`, the ring's buffer, `g_notify_fd`, `session->fd`, and the two descriptors of the
    reactor. -/
inductive Resource where
  | logger | storage | registry | ring | notify | socket | epoll | timer
  deriving DecidableEq, Repr

inductive Thread where
  | ingress | worker | monitor
  deriving DecidableEq, Repr

def threads : List Thread := [.ingress, .worker, .monitor]

/-- What more than one thread uses without a lock of its own. The socket is used under
    `session->lock`, and the descriptors of the reactor by the monitor alone. -/
def shared : Resource → Bool
  | .logger | .storage | .registry | .ring | .notify => true
  | .socket | .epoll | .timer => false

abbrev LifeEvent := Custody.Event Resource Thread

/-- The event, if there is something to do it with. -/
def onlyIf (there : Bool) (e : LifeEvent) : List LifeEvent := if there then [e] else []

/-! ## Where everyone is -/

/-- Where `main` is, with `gateway_app_init`, `_run`, `_stop` and `_destroy` inlined; `code` is
    the value it will return. -/
inductive MainPc where
  | loadConfig | loggerInit | storageOpen | register | initAll | ringInit | watchdogInit
  | setRunning | createIngress | createWorker | createMonitor
  /-- The joins of `gateway_app_run` after a `pthread_create` has failed. -/
  | unwindIngress (worker : Bool) | unwindWorker
  | notifyReady | waitExit
  | clearRunning | joinIngress | joinWorker | joinMonitor | sessionShutdown | watchdogShutdown
  | shutdownAll (code : Int) | ringDestroy (code : Int) | storageClose (code : Int)
  | loggerShutdown (code : Int) | exited (code : Int)
  deriving DecidableEq, Repr

/-- Where `ingress_main` is; `push n` has `n` points to go. -/
inductive IngressPc where
  | check | poll | push (n : Nat) | gauges | done
  deriving DecidableEq, Repr

/-- Where `worker_main` is; `publishing` is inside `mqtt_session_publish_telemetry`, with the
    session's lock. -/
inductive WorkerPc where
  | check | pop | store | engine | alarm | submit | tick | publish | publishing | mark | gauges
  | done
  deriving DecidableEq, Repr

/-- The stages of `monitor_on_timer`; `fetch` is the query of the replay, before the lock, and
    `replaying`, `pinging` and `beating` are inside a call on the session, with the lock. -/
inductive TimerPc where
  | check | alive | fetch | replay | replaying | ping | pinging | pending | heartbeat | beating
  deriving DecidableEq, Repr

/-- Where `monitor_main` is; `callback true` is one made by the reactor. -/
inductive MonitorPc where
  | epollCreate | timerCreate | epollCtl | addTimer
  | fallback | loop | wait | destroy
  | callback (reactor : Bool) (pc : TimerPc)
  | done
  deriving DecidableEq, Repr

structure Life where
  main : MainPc
  ingress : IngressPc
  worker : WorkerPc
  monitor : MonitorPc
  /-- `app->running`. -/
  running : Bool
  g_exit_requested : Bool
  /-- `g_log_fp` is not `NULL`. -/
  logger : Bool
  /-- `g_notify_fd` is a descriptor. -/
  notify : Bool
  /-- `session->fd` is a descriptor. -/
  socket : Bool
  log : List LifeEvent

def lifeStart : Life where
  main := .loadConfig
  ingress := .check
  worker := .check
  monitor := .epollCreate
  running := false
  g_exit_requested := false
  logger := false
  notify := false
  socket := false
  log := []

/-- The state with these events behind it. -/
def Life.did (s : Life) (events : List LifeEvent) : Life :=
  { s with log := s.log ++ events }

/-! ## `main` -/

/-- One step of `main`; `ok` is what the call at hand answers. A join waits for its thread. -/
def mainStep (s : Life) (ok : Bool) : Option Life :=
  match s.main with
  | .loadConfig =>
    if ok then some { s with main := .loggerInit }
    else some ({ s with main := .exited 1 }.did [.returned 1])
  | .loggerInit =>
    if ok then some ({ s with main := .storageOpen, logger := true }.did [.opened .logger])
    else some { s with main := .storageOpen }
  | .storageOpen =>
    if ok then some ({ s with main := .register }.did [.opened .storage])
    else some { s with main := .loggerShutdown 1 }
  | .register =>
    if ok then some { s with main := .initAll }
    else some ({ s with main := .loggerShutdown 1 }.did [.closed .storage])
  | .initAll => some ({ s with main := .ringInit }.did [.opened .registry])
  | .ringInit =>
    if ok then some ({ s with main := .watchdogInit }.did [.opened .ring])
    else some ({ s with main := .loggerShutdown 1 }.did [.closed .registry, .closed .storage])
  | .watchdogInit =>
    if ok then some ({ s with main := .setRunning, notify := true }.did [.opened .notify])
    else some { s with main := .setRunning }
  | .setRunning => some { s with main := .createIngress, running := true }
  | .createIngress =>
    if ok then some ({ s with main := .createWorker }.did [.created .ingress])
    else some { s with main := .shutdownAll 1, running := false }
  | .createWorker =>
    if ok then some ({ s with main := .createMonitor }.did [.created .worker])
    else some { s with main := .unwindIngress false, running := false }
  | .createMonitor =>
    if ok then some ({ s with main := .notifyReady }.did [.created .monitor])
    else some { s with main := .unwindIngress true, running := false }
  | .unwindIngress worker =>
    if s.ingress = .done then
      some ({ s with main := if worker then .unwindWorker else .shutdownAll 1 }.did
        [.joined .ingress])
    else none
  | .unwindWorker =>
    if s.worker = .done then some ({ s with main := .shutdownAll 1 }.did [.joined .worker])
    else none
  | .notifyReady =>
    some ({ s with main := .waitExit }.did (onlyIf s.notify (.used none .notify)))
  | .waitExit => some (if s.g_exit_requested then { s with main := .clearRunning } else s)
  | .clearRunning => some { s with main := .joinIngress, running := false }
  | .joinIngress =>
    if s.ingress = .done then some ({ s with main := .joinWorker }.did [.joined .ingress])
    else none
  | .joinWorker =>
    if s.worker = .done then some ({ s with main := .joinMonitor }.did [.joined .worker])
    else none
  | .joinMonitor =>
    if s.monitor = .done then some ({ s with main := .sessionShutdown }.did [.joined .monitor])
    else none
  | .sessionShutdown =>
    some ({ s with main := .watchdogShutdown, socket := false }.did
      (onlyIf s.socket (.closed .socket)))
  | .watchdogShutdown =>
    some ({ s with main := .shutdownAll 0, notify := false }.did
      (onlyIf s.notify (.closed .notify)))
  | .shutdownAll code => some ({ s with main := .ringDestroy code }.did [.closed .registry])
  | .ringDestroy code => some ({ s with main := .storageClose code }.did [.closed .ring])
  | .storageClose code => some ({ s with main := .loggerShutdown code }.did [.closed .storage])
  | .loggerShutdown code =>
    some (({ s with main := .exited code, logger := false }.did
      (onlyIf s.logger (.closed .logger))).did [.returned code])
  | .exited _ => none

/-! ## The threads -/

/-- Whether `main` has created a thread and not joined it yet. -/
def MainPc.runs : MainPc → Thread → Bool
  | .createWorker, .ingress | .createMonitor, .ingress | .unwindIngress _, .ingress => true
  | .createMonitor, .worker | .unwindIngress true, .worker | .unwindWorker, .worker => true
  | .notifyReady, _ | .waitExit, _ | .clearRunning, _ | .joinIngress, _ => true
  | .joinWorker, .worker | .joinWorker, .monitor | .joinMonitor, .monitor => true
  | _, _ => false

/-- What a call on the MQTT session does to the socket it finds and leaves: it connects if there
    is none, and closes the one there is when it fails. -/
def socketEvents (t : Thread) : (before after : Bool) → List LifeEvent
  | false, false => []
  | false, true => [.opened .socket]
  | true, true => [.used (some t) .socket]
  | true, false => [.used (some t) .socket, .closed .socket]

/-- A part of a session call, up to where it waits or to its end. -/
def sessionCall (s : Life) (t : Thread) (after : Bool) : Life :=
  { s with socket := after }.did (socketEvents t s.socket after)

def WorkerPc.inCall : WorkerPc → Bool
  | .publishing => true
  | _ => false

def MonitorPc.inCall : MonitorPc → Bool
  | .callback _ .replaying | .callback _ .pinging | .callback _ .beating => true
  | _ => false

/-- Somebody has `session->lock`. -/
def Life.locked (s : Life) : Bool := s.worker.inCall || s.monitor.inCall

/-- One step of `ingress_main`; `n` points come from a poll, which has room for eight. -/
def ingressStep (s : Life) (n : Nat) : Option Life :=
  match s.ingress with
  | .check =>
    if s.running then some { s with ingress := .poll }
    else some ({ s with ingress := .done }.did [.finished .ingress])
  | .poll =>
    if n ≤ 8 then
      some ({ s with ingress := .push n }.did [.used (some .ingress) .registry])
    else none
  | .push 0 => some { s with ingress := .gauges }
  | .push (n + 1) => some ({ s with ingress := .push n }.did [.used (some .ingress) .ring])
  | .gauges => some ({ s with ingress := .check }.did [.used (some .ingress) .ring])
  | .done => none

/-- One step of `worker_main`; `ok` is what the call at hand answers (there is a point, an alarm,
    a command that was taken, a point that was published), `after` how it leaves the socket. The
    publish waits for the lock. -/
def workerStep (s : Life) (ok after : Bool) : Option Life :=
  match s.worker with
  | .check =>
    if s.running then some { s with worker := .pop }
    else some ({ s with worker := .done }.did [.finished .worker])
  | .pop =>
    some ({ s with worker := if ok then .store else .check }.did [.used (some .worker) .ring])
  | .store => some ({ s with worker := .engine }.did [.used (some .worker) .storage])
  | .engine => some { s with worker := if ok then .alarm else .submit }
  | .alarm => some ({ s with worker := .submit }.did [.used (some .worker) .storage])
  | .submit => some { s with worker := if ok then .tick else .publish }
  | .tick =>
    some ({ s with worker := .publish }.did
      [.used (some .worker) .registry, .used (some .worker) .storage])
  | .publish =>
    if s.locked then none else some (sessionCall { s with worker := .publishing } .worker after)
  | .publishing =>
    some (sessionCall { s with worker := if ok then .mark else .gauges } .worker after)
  | .mark => some ({ s with worker := .gauges }.did [.used (some .worker) .storage])
  | .gauges =>
    some ({ s with worker := .check }.did
      [.used (some .worker) .ring, .used (some .worker) .storage])
  | .done => none

/-- What a step of the monitor is answered: that the call failed, that it succeeded with nothing
    to do, or that the timer has expired. -/
inductive MonitorAnswer where
  | fails | idle | fires
  deriving DecidableEq, Repr

/-- Where `monitor_on_timer` goes back to. -/
def afterCallback (reactor : Bool) : MonitorPc := if reactor then .loop else .fallback

/-- One step of `monitor_on_timer`; the session calls wait for the lock. A ping opens no socket. -/
def timerStep (s : Life) (answer : MonitorAnswer) (reactor after : Bool) : TimerPc → Option Life
  | .check =>
    some { s with
      monitor := if s.running then .callback reactor .alive else afterCallback reactor }
  | .alive =>
    some ({ s with monitor := .callback reactor .fetch }.did
      (onlyIf s.notify (.used (some .monitor) .notify)))
  | .fetch =>
    some ({ s with
      monitor := .callback reactor (if answer = MonitorAnswer.fails then .ping else .replay) }.did
        [.used (some .monitor) .storage])
  | .replay =>
    if s.locked then none
    else some (sessionCall { s with monitor := .callback reactor .replaying } .monitor after)
  | .replaying =>
    some ((sessionCall { s with monitor := .callback reactor .ping } .monitor after).did
      [.used (some .monitor) .storage])
  | .ping =>
    if s.locked then none else some { s with monitor := .callback reactor .pinging }
  | .pinging =>
    some (sessionCall { s with monitor := .callback reactor .pending } .monitor
      (s.socket && after))
  | .pending =>
    some ({ s with monitor := .callback reactor .heartbeat }.did
      [.used (some .monitor) .storage])
  | .heartbeat =>
    if s.locked then none
    else some (sessionCall { s with monitor := .callback reactor .beating } .monitor after)
  | .beating => some (sessionCall { s with monitor := afterCallback reactor } .monitor after)

/-- One step of `monitor_main`, with `reactor_init`, `reactor_add_timer_ms`, `reactor_run_once`
    and `reactor_destroy` inlined. -/
def monitorStep (s : Life) (answer : MonitorAnswer) (after : Bool) : Option Life :=
  match s.monitor with
  | .epollCreate =>
    if answer = .fails then some { s with monitor := .fallback }
    else some ({ s with monitor := .timerCreate }.did [.opened .epoll])
  | .timerCreate =>
    if answer = .fails then some ({ s with monitor := .fallback }.did [.closed .epoll])
    else some ({ s with monitor := .epollCtl }.did [.opened .timer])
  | .epollCtl =>
    if answer = .fails then
      some ({ s with monitor := .fallback }.did
        [.used (some .monitor) .epoll, .closed .timer, .closed .epoll])
    else some ({ s with monitor := .addTimer }.did [.used (some .monitor) .epoll])
  | .addTimer =>
    if answer = .fails then
      some ({ s with monitor := .fallback }.did [.closed .timer, .closed .epoll])
    else some ({ s with monitor := .loop }.did [.used (some .monitor) .timer])
  | .fallback =>
    if s.running then some { s with monitor := .callback false .check }
    else some ({ s with monitor := .done }.did [.finished .monitor])
  | .loop => some { s with monitor := if s.running then .wait else .destroy }
  | .wait =>
    match answer with
    | .fails => some ({ s with monitor := .destroy }.did [.used (some .monitor) .epoll])
    | .idle => some ({ s with monitor := .loop }.did [.used (some .monitor) .epoll])
    | .fires =>
      some ({ s with monitor := .callback true .check }.did
        [.used (some .monitor) .epoll, .used (some .monitor) .timer])
  | .destroy =>
    some ({ s with monitor := .done }.did
      [.closed .timer, .closed .epoll, .finished .monitor])
  | .callback reactor pc => timerStep s answer reactor after pc
  | .done => none

/-! ## The system -/

inductive LifeStep where
  /-- `SIGINT`, `SIGTERM` or `SIGHUP`. -/
  | signal
  | main (ok : Bool)
  | ingress (n : Nat)
  | worker (ok after : Bool)
  | monitor (answer : MonitorAnswer) (after : Bool)
  deriving DecidableEq, Repr

/-- A step of `main`, of a thread that is there, or a signal. -/
def lifeStep (s : Life) : LifeStep → Option Life
  | .signal => some { s with g_exit_requested := true }
  | .main ok => mainStep s ok
  | .ingress n => if s.main.runs .ingress then ingressStep s n else none
  | .worker ok after => if s.main.runs .worker then workerStep s ok after else none
  | .monitor answer after =>
    if s.main.runs .monitor then monitorStep s answer after else none

/-- The step gives the lock back: the session call under way returns. -/
def LifeStep.returns (s : Life) : LifeStep → Bool
  | .worker _ _ => s.worker.inCall
  | .monitor _ _ => s.monitor.inCall
  | _ => false

end Lifecycle
end EdgeFlow
