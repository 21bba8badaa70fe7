import EdgeFlow.Ingress.Adapter
import EdgeFlow.Platform.Storage

/-!
# The command scheduler (`src/runtime/command_scheduler.*`)

A queue of at most 32 commands and the next id. A tick empties the queue and then goes through
what was pending; each turn of that loop is one call of the adapter and one storage statement
(`tickOne`), so that other threads' statements can come between two turns.
-/

set_option autoImplicit false

namespace EdgeFlow

open Lib

variable {V : Type}

/-- `COMMAND_QUEUE_MAX`. -/
def commandQueueMax : Nat := 32

/-- `command_scheduler_t`: the filled part of `queue`, and `next_command_id`. -/
structure CommandScheduler (V : Type) where
  queue : List (Command V)
  next_command_id : UInt64
  fits : queue.length ≤ commandQueueMax

/-- `command_scheduler_init`. -/
def commandSchedulerInit : CommandScheduler V := ⟨[], 1, Nat.zero_le _⟩

/-- The id a command is queued under, and the scheduler's next one. A command without an id
    gets the next; a command with one may push the next id ahead. -/
def assignId (next command_id : UInt64) : UInt64 × UInt64 :=
  if command_id = 0 then (next, next + 1)
  else if next ≤ command_id then (command_id, command_id + 1)
  else (command_id, next)

/-- `command_scheduler_submit`: the return value, the scheduler, and the caller's command, which it
    writes the id and the state into before it copies it. `-1` says that the queue is full. -/
def commandSchedulerSubmitCall (scheduler : CommandScheduler V) (command : Command V) :
    Int × CommandScheduler V × Command V :=
  if h : commandQueueMax ≤ scheduler.queue.length then (-1, scheduler, command)
  else
    let (command_id, next_command_id) := assignId scheduler.next_command_id command.command_id
    let command := { command with command_id := command_id, state := .pending }
    (0,
      { queue := scheduler.queue ++ [command]
        next_command_id := next_command_id
        fits := by
          rw [List.length_append, List.length_singleton]
          exact Nat.lt_of_not_le h },
      command)

/-- The call for a caller that drops its command: the scheduler, or `none` for `-1`. -/
def commandSchedulerSubmit (scheduler : CommandScheduler V) (command : Command V) :
    Option (CommandScheduler V) :=
  let (ret, scheduler, _) := commandSchedulerSubmitCall scheduler command
  if ret = 0 then some scheduler else none

/-- The commands a tick picks up; the queue is empty afterwards. -/
def CommandScheduler.takePending (scheduler : CommandScheduler V) :
    List (Command V) × CommandScheduler V :=
  (scheduler.queue.filter fun c => decide (c.state = .pending),
    { scheduler with queue := [], fits := Nat.zero_le _ })

/-- The outcome of one command: FAILED if `write_command` is there and does not return `0`. -/
def tickOutcome (adapter : DeviceAdapter) (k : Nat) (cmd : Command V) : Command V :=
  let cmd := { cmd with state := .sent }
  match adapter.write_command with
  | some write_command =>
    if write_command k ≠ 0 then
      { cmd with state := .failed, result_message := CStr.copy 128 (ascii "adapter write failed") }
    else commandMarkVerified { cmd with state := .acked } (ascii "simulator readback verified")
  | none => commandMarkVerified { cmd with state := .acked } (ascii "simulator readback verified")

/-- What a turn of the loop does with its command: the call of `write_command` with its return
    value, if there is one, and the command `storage_append_command` is given. -/
structure TickTurn (V : Type) where
  wrote : Option (Command V × Int)
  recorded : Command V

/-- The turn on `cmd` after `k` calls of `write_command`. -/
def tickTurn (adapter : DeviceAdapter) (k : Nat) (cmd : Command V) : TickTurn V where
  wrote := adapter.write_command.map fun write_command =>
    ({ cmd with state := .sent }, write_command k)
  recorded := tickOutcome adapter k cmd

/-- The commands a turn passed to `write_command`: one or none. -/
def TickTurn.written (t : TickTurn V) : List (Command V) := (t.wrote.map Prod.fst).toList

theorem tickTurn_written (adapter : DeviceAdapter) (k : Nat) (cmd : Command V) :
    (tickTurn adapter k cmd).written =
      if adapter.write_command.isSome then [{ cmd with state := .sent }] else [] := by
  cases hw : adapter.write_command <;> simp [tickTurn, TickTurn.written, hw]

/-- One turn of the loop of `command_scheduler_tick`, on the commands handed to `write_command`
    so far and the store. -/
def tickOne (env : StorageEnv) (adapter : DeviceAdapter) (out : List (Command V) × Storage V)
    (cmd : Command V) : List (Command V) × Storage V :=
  let turn := tickTurn adapter out.1.length cmd
  (out.1 ++ turn.written, storageAppendCommand env out.2 turn.recorded)

/-- What the loop of a tick works on: how many commands it has been through, its turns, and their
    effects. A tick leaves nothing behind but the effects and the count, which it returns; the
    turns say which command went where. -/
structure TickLoop (V : Type) where
  processed : Nat
  turns : List (TickTurn V)
  out : List (Command V) × Storage V

/-- The loop's body. -/
def tickBody (env : StorageEnv) (adapter : DeviceAdapter) (l : TickLoop V) (cmd : Command V) :
    TickLoop V where
  processed := l.processed + 1
  turns := l.turns ++ [tickTurn adapter l.out.1.length cmd]
  out := tickOne env adapter l.out cmd

/-- The effects of the loop do not need the log. -/
theorem tickLoop_out (env : StorageEnv) (adapter : DeviceAdapter) (pending : List (Command V)) :
    ∀ l : TickLoop V, (pending.foldl (tickBody env adapter) l).out =
      pending.foldl (tickOne env adapter) l.out := by
  induction pending with
  | nil =>
    intro l
    rfl
  | cons cmd pending ih =>
    intro l
    exact ih _

/-- `command_scheduler_tick`: the scheduler, and the loop at its end. -/
def commandSchedulerTickCall (env : StorageEnv) (adapter : DeviceAdapter)
    (scheduler : CommandScheduler V) (out : List (Command V) × Storage V) :
    CommandScheduler V × TickLoop V :=
  let (pending, scheduler) := scheduler.takePending
  (scheduler, pending.foldl (tickBody env adapter) ⟨0, [], out⟩)

/-- The call for a caller that drops the count. -/
def commandSchedulerTick (env : StorageEnv) (adapter : DeviceAdapter)
    (scheduler : CommandScheduler V) (out : List (Command V) × Storage V) :
    CommandScheduler V × List (Command V) × Storage V :=
  let (scheduler, l) := commandSchedulerTickCall env adapter scheduler out
  (scheduler, l.out)

/-! ## Runs of the interface -/

inductive SchedulerCall (V : Type) where
  | submit (command : Command V)
  | tick (adapter : DeviceAdapter)

/-- A scheduler and its store, with what its callers and its adapters have seen so far. -/
structure SchedulerRun (V : Type) where
  scheduler : CommandScheduler V
  db : Storage V
  /-- The caller's command after each `submit` that returned `0`. -/
  accepted : List (Command V)
  /-- The commands passed to `write_command`. -/
  writes : List (Command V)
  /-- The turns of all ticks. -/
  turns : List (TickTurn V)

def schedulerStart (db : Storage V) : SchedulerRun V where
  scheduler := commandSchedulerInit
  db := db
  accepted := []
  writes := []
  turns := []

def schedulerStep (env : StorageEnv) (s : SchedulerRun V) : SchedulerCall V → SchedulerRun V
  | .submit command =>
    let (ret, scheduler, command) := commandSchedulerSubmitCall s.scheduler command
    { s with
      scheduler := scheduler
      accepted := if ret = 0 then s.accepted ++ [command] else s.accepted }
  | .tick adapter =>
    let (scheduler, l) := commandSchedulerTickCall env adapter s.scheduler (s.writes, s.db)
    { s with
      scheduler := scheduler
      db := l.out.2
      writes := l.out.1
      turns := s.turns ++ l.turns }

/-- The scheduler after the calls `calls`, from `command_scheduler_init`. -/
def schedulerAfter (env : StorageEnv) (db : Storage V) (calls : List (SchedulerCall V)) :
    SchedulerRun V :=
  calls.foldl (schedulerStep env) (schedulerStart db)

end EdgeFlow
