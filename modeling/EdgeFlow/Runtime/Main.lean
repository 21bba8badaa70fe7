import EdgeFlow.Lib.Run
import EdgeFlow.Egress.MqttSession

/-!
# The process (`src/main.c`)

`main` from the point where `gateway_app_run` has returned `0`: the signal handlers are
installed, the threads make session calls, and the main thread waits for the exit flag. What
can end the process is the main loop seeing the flag, or a signal with its default action —
and the one signal the gateway can bring upon itself is the SIGPIPE of a `write`.
-/

set_option autoImplicit false

namespace EdgeFlow

open Lib

variable {V : Type}

/-- The signals `main` installs `on_signal` for. -/
def mainSignals : List Signal := [.sigint, .sigterm, .sighup]

inductive ProcessStatus where
  | running
  | exited
  | killed
  deriving DecidableEq, Repr

structure Process (V : Type) where
  net : Net V
  g_exit_requested : Bool
  status : ProcessStatus
  /-- A session call has not returned yet. -/
  busy : Bool
  /-- The signals the process has received from outside. -/
  received : List Signal

/-- `main` at its loop. -/
def processStart (cfg : GatewayConfig V) : Process V where
  net := mqttSessionInit cfg mainSignals
  g_exit_requested := false
  status := .running
  busy := false
  received := []

/-- `on_signal`. -/
def onSignal (p : Process V) : Process V := { p with g_exit_requested := true }

inductive ProcessStep (V : Type) where
  | signal (signo : Signal)
  /-- A reset from the broker arrives between two calls. -/
  | reset (fd : Nat)
  | call (call : SessionCall V) (events : List Event)
  | leave

/-- One step of the process. Only the handled signals come from outside. A call runs to its
    end, or to the system call it waits in, or to the signal that kills it. Leaving the loop
    stops the threads and shuts the session down. -/
def processStep [CDouble V] (p : Process V) : ProcessStep V → Option (Process V)
  | .signal signo =>
    if p.status = .running ∧ signo ∈ mainSignals then
      some (onSignal { p with received := p.received ++ [signo] })
    else none
  | .reset fd =>
    if p.status = .running then some { p with net := brokerMove fd true p.net } else none
  | .call call events =>
    if p.status = .running ∧ p.busy = false then
      match call.rc { p.net with events := events } with
      | (.ok _, net) => some { p with net := net }
      | (.error .blocked, net) => some { p with net := net, busy := true }
      | (.error .killed, net) => some { p with net := net, status := .killed }
    else none
  | .leave =>
    if p.status = .running ∧ p.busy = false ∧ p.g_exit_requested = true then
      some { p with net := (mqttSessionShutdown p.net).2, status := .exited }
    else none

end EdgeFlow
