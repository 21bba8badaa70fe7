import EdgeFlow.Core.Ring
import EdgeFlow.Runtime.Worker

/-!
# The pipeline from ingress to worker (`src/runtime/app.c`)

`ingress_main`, `worker_main` and `gateway_app_stop` as three threads over the ring and the
`running` flag. The ring's micro-steps are those of `Core/Ring`; every load of the flag, every
counter increment and the append to the store is a step of its own.

Of the worker's body only the append matters here; everything after the counter (engine, alarm,
command, publish) is one step that leaves this state alone. The heartbeat, the gauges and the
sleep at the end of an ingress round are left out for the same reason.
-/

set_option autoImplicit false

namespace EdgeFlow

open Lib

variable {V : Type}

/-- Where `ingress_main` is. -/
inductive IngressPc (V : Type) where
  /-- Before the load of `running`. -/
  | check
  | poll
  /-- In the loop over the polled points, these still to go. -/
  | points (rest : List (Telemetry V))
  | pushing (rest : List (Telemetry V))
  /-- The push returned `true`; before the counter. -/
  | pushed (rest : List (Telemetry V))
  | done

/-- Where `worker_main` is. -/
inductive WorkerLoopPc (V : Type) where
  /-- Before the load of `running`. -/
  | check
  | popping
  /-- Before `storage_append_telemetry`. -/
  | append (popped : Telemetry V)
  | count
  | body
  | done

/-- Where `gateway_app_stop` is. -/
inductive StopPc where
  | notCalled
  | joinIngress
  | joinWorker
  | joined
  deriving DecidableEq, Repr

structure Pipeline (V : Type) where
  sys : RingSys (Telemetry V)
  running : Bool
  ingress : IngressPc V
  worker : WorkerLoopPc V
  stop : StopPc
  ingress_points : UInt64
  processed_points : UInt64
  /-- The points passed to `storage_append_telemetry`. -/
  stored : List (Telemetry V)

/-- After `gateway_app_run`. -/
def pipelineStart (ring : SpscRing (Telemetry V)) : Pipeline V where
  sys := ringStart ring
  running := true
  ingress := .check
  worker := .check
  stop := .notCalled
  ingress_points := 0
  processed_points := 0
  stored := []

inductive IngressAct (V : Type) where
  | check
  | poll (points : List (Telemetry V))
  | nextPoint
  | push
  | pushReturn
  | count

inductive WorkerAct where
  | check
  | pop
  | popReturn
  | append
  | count
  | body

inductive StopAct where
  | clearRunning
  | joinIngress
  | joinWorker

/-- One step of `ingress_main`. A poll fills at most the eight points of its array. -/
def ingressStep (s : Pipeline V) : IngressAct V → Option (Pipeline V)
  | .check =>
    match s.ingress with
    | .check => some { s with ingress := if s.running then .poll else .done }
    | _ => none
  | .poll points =>
    match s.ingress with
    | .poll => if points.length ≤ 8 then some { s with ingress := .points points } else none
    | _ => none
  | .nextPoint =>
    match s.ingress with
    | .points [] => some { s with ingress := .check }
    | .points (p :: rest) =>
      (ringStep s.sys (.callPush p)).map fun sys => { s with sys := sys, ingress := .pushing rest }
    | _ => none
  | .push =>
    match s.ingress with
    | .pushing _ => (ringStep s.sys .push).map fun sys => { s with sys := sys }
    | _ => none
  | .pushReturn =>
    match s.ingress, s.sys.prod with
    | .pushing rest, .ret _ ok =>
      (ringStep s.sys .retPush).map fun sys =>
        { s with sys := sys, ingress := if ok then .pushed rest else .points rest }
    | _, _ => none
  | .count =>
    match s.ingress with
    | .pushed rest =>
      some { s with ingress := .points rest, ingress_points := s.ingress_points + 1 }
    | _ => none

/-- One step of `worker_main`. -/
def workerStep [CDouble V] (cfg : GatewayConfig V) (s : Pipeline V) :
    WorkerAct → Option (Pipeline V)
  | .check =>
    match s.worker with
    | .check =>
      if s.running then
        (ringStep s.sys .callPop).map fun sys => { s with sys := sys, worker := .popping }
      else some { s with worker := .done }
    | _ => none
  | .pop =>
    match s.worker with
    | .popping => (ringStep s.sys .pop).map fun sys => { s with sys := sys }
    | _ => none
  | .popReturn =>
    match s.worker, s.sys.cons with
    | .popping, .ret v =>
      (ringStep s.sys .retPop).map fun sys =>
        { s with
          sys := sys
          worker := match v with
            | some p => .append p
            | none => .check }
    | _, _ => none
  | .append =>
    match s.worker with
    | .append p =>
      some { s with worker := .count, stored := s.stored ++ [applyQualityRules cfg p] }
    | _ => none
  | .count =>
    match s.worker with
    | .count => some { s with worker := .body, processed_points := s.processed_points + 1 }
    | _ => none
  | .body =>
    match s.worker with
    | .body => some { s with worker := .check }
    | _ => none

/-- One step of `gateway_app_stop`; a join returns when its thread is done. -/
def stopStep (s : Pipeline V) : StopAct → Option (Pipeline V)
  | .clearRunning =>
    match s.stop with
    | .notCalled => some { s with running := false, stop := .joinIngress }
    | _ => none
  | .joinIngress =>
    match s.stop, s.ingress with
    | .joinIngress, .done => some { s with stop := .joinWorker }
    | _, _ => none
  | .joinWorker =>
    match s.stop, s.worker with
    | .joinWorker, .done => some { s with stop := .joined }
    | _, _ => none

inductive PipeAct (V : Type) where
  | ingress (a : IngressAct V)
  | worker (a : WorkerAct)
  | stop (a : StopAct)

/-- A step of one of the three threads. -/
def pipeStep [CDouble V] (cfg : GatewayConfig V) (s : Pipeline V) :
    PipeAct V → Option (Pipeline V)
  | .ingress a => ingressStep s a
  | .worker a => workerStep cfg s a
  | .stop a => stopStep s a

/-! ## The publish counters

The rest of the worker's body is one step of `Pipeline`, but it holds one more shared counter
update: after the publish, `mqtt_publish_ok` or `mqtt_publish_fail`. `MeteredPipeline` makes that
a step between the body's beginning and its end. -/

structure MeteredPipeline (V : Type) where
  pipe : Pipeline V
  /-- The publish of this iteration has been counted. -/
  counted : Bool
  mqtt_publish_ok : UInt64
  mqtt_publish_fail : UInt64

def meteredStart (ring : SpscRing (Telemetry V)) : MeteredPipeline V where
  pipe := pipelineStart ring
  counted := false
  mqtt_publish_ok := 0
  mqtt_publish_fail := 0

inductive MeteredAct (V : Type) where
  | pipe (a : PipeAct V)
  /-- `mqtt_session_publish_telemetry` returned `0` or not, and its counter is incremented. -/
  | publish (ok : Bool)

def meteredStep [CDouble V] (cfg : GatewayConfig V) (s : MeteredPipeline V) :
    MeteredAct V → Option (MeteredPipeline V)
  | .pipe (.worker .body) =>
    if s.counted then
      (workerStep cfg s.pipe .body).map fun pipe => { s with pipe := pipe, counted := false }
    else none
  | .pipe a => (pipeStep cfg s.pipe a).map fun pipe => { s with pipe := pipe }
  | .publish ok =>
    match s.pipe.worker with
    | .body =>
      if s.counted then none
      else if ok then
        some { s with counted := true, mqtt_publish_ok := s.mqtt_publish_ok + 1 }
      else some { s with counted := true, mqtt_publish_fail := s.mqtt_publish_fail + 1 }
    | _ => none

end EdgeFlow
