import EdgeFlow.Lib.Run
import EdgeFlow.Runtime.CommandScheduler

/-!
# Runs of the command scheduler

What the callers of `command_scheduler_submit` and `command_scheduler_tick` can rely on over any
sequence of calls. A tick copies the PENDING entries out of the queue and then clears all of it,
so nothing is lost only because everything in the queue *is* pending (`Conserved.pending`): that is
the invariant, and conservation follows from it turn by turn.

Two things the scheduler's comments promise do not hold of every run. A command can be recorded
VERIFIED without having been written, and two accepted commands can have one id; each time the
theorem says exactly when.
-/

set_option autoImplicit false

namespace EdgeFlow

open Lib

variable {V : Type}

/-- A command without the two fields a tick writes. -/
def Command.order (c : Command V) : Command V :=
  { c with state := .pending, result_message := CStr.empty 128 }

/-- A turn whose command ended in one of the two final states. -/
def TickTurn.Ended (t : TickTurn V) : Prop :=
  t.recorded.state = .verified ∨ t.recorded.state = .failed

/-- `turns` are the turns of a tick on the commands `pending`, one each and in their order. -/
def Turns (adapter : DeviceAdapter) (pending : List (Command V)) (turns : List (TickTurn V)) :
    Prop :=
  List.Forall₂ (fun cmd t => ∃ k, t = tickTurn adapter k cmd) pending turns

/-- Every command of the tick recorded as VERIFIED was passed to `write_command` in that tick, and
    the call returned `0`; every other one is recorded as FAILED. -/
def VerifiedMeansWritten (l : TickLoop V) : Prop :=
  ∀ t ∈ l.turns,
    (t.recorded.state = .verified →
      ∃ cmd, t.wrote = some (cmd, 0) ∧ cmd.order = t.recorded.order) ∧
    (t.recorded.state ≠ .verified → t.recorded.state = .failed)

/-- The ids of the accepted commands, in submission order. -/
def SchedulerRun.ids (s : SchedulerRun V) : List UInt64 :=
  s.accepted.map fun c => c.command_id

/-- A submit that will be accepted brings no id, or one that has not been passed yet; and the
    next id has not wrapped around. -/
def FreshId (s : SchedulerRun V) : SchedulerCall V → Prop
  | .submit command =>
    s.scheduler.queue.length < commandQueueMax →
      s.scheduler.next_command_id ≠ 0 ∧
        (command.command_id = 0 ∨ s.scheduler.next_command_id ≤ command.command_id)
  | .tick _ => True

/-! A set point as the state engine issues it, a plug-in with every callback, and the store and
answers of the runs below. -/

def pcsCommand (command_id : UInt64) : Command ℚ :=
  commandInitSetpoint command_id 0 (ascii "pcs_001") (ascii "target_power_kw") (-30) 3

def stubPlugin (write_command : Option (Nat → Int)) : DevicePlugin ℚ where
  protocol := .modbusRtu
  write_command := write_command
  name := CStr.copy 64 (ascii "stub")
  source_id := 1
  ctx := false
  init := some fun self _ => (0, self)
  shutdown := some fun self => self
  poll := some fun _ out => (0, out)

def openStore : Storage ℚ := storageOpen (gatewayConfigDefaults ℚ)

def answersOk : StorageEnv := ⟨fun _ => true, fun _ => true⟩

namespace Proof

/-! ## One submit -/

theorem submitCall_full {s : CommandScheduler V} (h : commandQueueMax ≤ s.queue.length)
    (c : Command V) : commandSchedulerSubmitCall s c = (-1, s, c) := by
  unfold commandSchedulerSubmitCall
  rw [dif_pos h]

/-- What a submit that finds room leaves behind. -/
structure Accepts (s : CommandScheduler V) (c : Command V)
    (r : Int × CommandScheduler V × Command V) : Prop where
  ret : r.1 = 0
  command : r.2.2 =
    { c with
      command_id := (assignId s.next_command_id c.command_id).1
      state := .pending }
  queue : r.2.1.queue = s.queue ++ [r.2.2]
  next : r.2.1.next_command_id = (assignId s.next_command_id c.command_id).2

theorem submitCall_room {s : CommandScheduler V} (h : s.queue.length < commandQueueMax)
    (c : Command V) : Accepts s c (commandSchedulerSubmitCall s c) := by
  unfold commandSchedulerSubmitCall
  rw [dif_neg (Nat.not_le.mpr h)]
  exact ⟨rfl, rfl, rfl, rfl⟩

theorem submit_room {s : CommandScheduler V} (h : s.queue.length < commandQueueMax)
    (c : Command V) :
    commandSchedulerSubmit s c = some (commandSchedulerSubmitCall s c).2.1 :=
  if_pos (submitCall_room h c).ret

/-- The two ways a submit ends. -/
theorem submitCall_cases (s : CommandScheduler V) (c : Command V) :
    (commandQueueMax ≤ s.queue.length ∧ commandSchedulerSubmitCall s c = (-1, s, c)) ∨
      (s.queue.length < commandQueueMax ∧ Accepts s c (commandSchedulerSubmitCall s c)) := by
  rcases Nat.lt_or_ge s.queue.length commandQueueMax with h | h
  · exact .inr ⟨h, submitCall_room h c⟩
  · exact .inl ⟨h, submitCall_full h c⟩

/-! ## One turn of a tick -/

section Turn

variable (adapter : DeviceAdapter) (k : Nat) (cmd : Command V)

theorem tickOutcome_none (h : adapter.write_command = none) :
    tickOutcome adapter k cmd =
      commandMarkVerified { cmd with state := .acked } (ascii "simulator readback verified") := by
  unfold tickOutcome
  rw [h]

theorem tickOutcome_wrote {f : Nat → Int} (h : adapter.write_command = some f) (hk : f k = 0) :
    tickOutcome adapter k cmd =
      commandMarkVerified { cmd with state := .acked } (ascii "simulator readback verified") := by
  unfold tickOutcome
  rw [h]
  simp [hk]

theorem tickOutcome_failed {f : Nat → Int} (h : adapter.write_command = some f) (hk : f k ≠ 0) :
    tickOutcome adapter k cmd =
      { cmd with
        state := .failed
        result_message := CStr.copy 128 (ascii "adapter write failed") } := by
  unfold tickOutcome
  rw [h]
  simp [hk]

/-- **A turn ends its command in VERIFIED or FAILED, and changes nothing else of it but the
    message.** -/
theorem tickTurn_recorded :
    (tickTurn adapter k cmd).recorded.order = cmd.order ∧ (tickTurn adapter k cmd).Ended := by
  show (tickOutcome adapter k cmd).order = cmd.order ∧ _
  cases hw : adapter.write_command with
  | none =>
    refine ⟨?_, .inl ?_⟩
    · rw [tickOutcome_none adapter k cmd hw]
      rfl
    · show (tickOutcome adapter k cmd).state = .verified
      rw [tickOutcome_none adapter k cmd hw]
      rfl
  | some f =>
    by_cases hk : f k = 0
    · refine ⟨?_, .inl ?_⟩
      · rw [tickOutcome_wrote adapter k cmd hw hk]
        rfl
      · show (tickOutcome adapter k cmd).state = .verified
        rw [tickOutcome_wrote adapter k cmd hw hk]
        rfl
    · refine ⟨?_, .inr ?_⟩
      · rw [tickOutcome_failed adapter k cmd hw hk]
        rfl
      · show (tickOutcome adapter k cmd).state = .failed
        rw [tickOutcome_failed adapter k cmd hw hk]

theorem tickTurn_written_some (hw : adapter.write_command.isSome = true) :
    (tickTurn adapter k cmd).written.map Command.order = [cmd.order] := by
  rw [tickTurn_written, if_pos hw]
  rfl

end Turn

/-! ## One tick -/

/-- **The loop of a tick**: one turn for each command, counted; what was written and what went into
    the store is what the turns say. -/
theorem tickLoop_spec (env : StorageEnv) (adapter : DeviceAdapter) :
    ∀ (pending : List (Command V)) (l : TickLoop V), ∃ turns,
      Turns adapter pending turns ∧
      pending.foldl (tickBody env adapter) l =
        { processed := l.processed + pending.length
          turns := l.turns ++ turns
          out := (l.out.1 ++ turns.flatMap TickTurn.written,
            (turns.map fun t => t.recorded).foldl (storageAppendCommand env) l.out.2) } := by
  intro pending
  induction pending with
  | nil =>
    intro l
    exact ⟨[], .nil, by simp⟩
  | cons cmd pending ih =>
    intro l
    obtain ⟨turns, hturns, hloop⟩ := ih (tickBody env adapter l cmd)
    refine ⟨tickTurn adapter l.out.1.length cmd :: turns, .cons ⟨_, rfl⟩ hturns, ?_⟩
    rw [List.foldl_cons, hloop]
    simp only [tickBody, tickOne, List.length_cons, List.append_assoc, List.singleton_append,
      List.flatMap_cons, List.map_cons, List.foldl_cons, TickLoop.mk.injEq, and_true]
    exact Nat.add_right_comm _ _ _

theorem turns_mem {adapter : DeviceAdapter} {pending : List (Command V)}
    {turns : List (TickTurn V)} (h : Turns adapter pending turns) :
    ∀ t ∈ turns, ∃ k cmd, t = tickTurn adapter k cmd := by
  induction h with
  | nil =>
    intro t ht
    cases ht
  | @cons cmd t pending turns hhead _ ih =>
    intro t' ht'
    rcases List.mem_cons.mp ht' with rfl | ht'
    · obtain ⟨k, hk⟩ := hhead
      exact ⟨k, cmd, hk⟩
    · exact ih t' ht'

theorem turns_ended {adapter : DeviceAdapter} {pending : List (Command V)}
    {turns : List (TickTurn V)} (h : Turns adapter pending turns) : ∀ t ∈ turns, t.Ended := by
  intro t ht
  obtain ⟨k, cmd, rfl⟩ := turns_mem h t ht
  exact (tickTurn_recorded adapter k cmd).2

theorem turns_recorded {adapter : DeviceAdapter} {pending : List (Command V)}
    {turns : List (TickTurn V)} (h : Turns adapter pending turns) :
    turns.map (fun t => t.recorded.order) = pending.map Command.order := by
  induction h with
  | nil => rfl
  | @cons cmd t pending turns hhead _ ih =>
    obtain ⟨k, rfl⟩ := hhead
    rw [List.map_cons, List.map_cons, ih, (tickTurn_recorded adapter k cmd).1]

theorem turns_written {adapter : DeviceAdapter} (hw : adapter.write_command.isSome = true)
    {pending : List (Command V)} {turns : List (TickTurn V)} (h : Turns adapter pending turns) :
    (turns.flatMap TickTurn.written).map Command.order = pending.map Command.order := by
  induction h with
  | nil => rfl
  | @cons cmd t pending turns hhead _ ih =>
    obtain ⟨k, rfl⟩ := hhead
    rw [List.flatMap_cons, List.map_append, tickTurn_written_some adapter k cmd hw, ih]
    rfl

/-! ## Runs -/

/-- What every run keeps: the queue is all PENDING, and what the ticks recorded, followed by the
    queue, is what was accepted. -/
structure Conserved (s : SchedulerRun V) : Prop where
  pending : ∀ c ∈ s.scheduler.queue, c.state = .pending
  recorded : s.turns.map (fun t => t.recorded.order) ++ s.scheduler.queue.map Command.order =
    s.accepted.map Command.order
  ended : ∀ t ∈ s.turns, t.Ended

theorem conserved_start (db : Storage V) : Conserved (schedulerStart db) :=
  ⟨fun c hc => (by cases hc), rfl, fun t ht => (by cases ht)⟩

/-- With everything pending, a tick takes the whole queue. -/
theorem takePending_of_conserved {s : SchedulerRun V} (h : Conserved s) :
    s.scheduler.takePending.1 = s.scheduler.queue := by
  refine List.filter_eq_self.mpr ?_
  intro c hc
  exact decide_eq_true (h.pending c hc)

/-- A tick of a run: its turns are those of the queued commands. -/
theorem tick_of_conserved (env : StorageEnv) (adapter : DeviceAdapter) {s : SchedulerRun V}
    (h : Conserved s) :
    ∃ turns, Turns adapter s.scheduler.queue turns ∧
      commandSchedulerTickCall env adapter s.scheduler (s.writes, s.db) =
        (s.scheduler.takePending.2, ⟨s.scheduler.queue.length, turns,
          (s.writes ++ turns.flatMap TickTurn.written,
            (turns.map fun t => t.recorded).foldl (storageAppendCommand env) s.db)⟩) := by
  obtain ⟨turns, hturns, hloop⟩ :=
    tickLoop_spec env adapter s.scheduler.queue ⟨0, [], (s.writes, s.db)⟩
  refine ⟨turns, hturns, ?_⟩
  calc commandSchedulerTickCall env adapter s.scheduler (s.writes, s.db)
      = (s.scheduler.takePending.2,
          s.scheduler.takePending.1.foldl (tickBody env adapter) ⟨0, [], (s.writes, s.db)⟩) := rfl
    _ = _ := by
      rw [takePending_of_conserved h, hloop]
      simp only [Nat.zero_add, List.nil_append]

theorem step_conserved (env : StorageEnv) {s : SchedulerRun V} (h : Conserved s)
    (call : SchedulerCall V) : Conserved (schedulerStep env s call) := by
  cases call with
  | submit c =>
    rcases submitCall_cases s.scheduler c with ⟨_, hfull⟩ | ⟨_, hacc⟩
    · simp only [schedulerStep, hfull]
      exact ⟨h.pending, h.recorded, h.ended⟩
    · simp only [schedulerStep, hacc.ret, if_true]
      refine ⟨?_, ?_, h.ended⟩
      · intro c' hc'
        rw [hacc.queue] at hc'
        rcases List.mem_append.mp hc' with hc' | hc'
        · exact h.pending c' hc'
        · rw [List.mem_singleton.mp hc', hacc.command]
      · simp only [hacc.queue, List.map_append, ← h.recorded, List.append_assoc]
  | tick adapter =>
    obtain ⟨turns, hturns, hcall⟩ := tick_of_conserved env adapter h
    simp only [schedulerStep, hcall]
    refine ⟨fun c hc => (by cases hc), ?_, ?_⟩
    · simp only [List.map_append, turns_recorded hturns, h.recorded, CommandScheduler.takePending,
        List.map_nil, List.append_nil]
    · intro t ht
      rcases List.mem_append.mp ht with ht | ht
      · exact h.ended t ht
      · exact turns_ended hturns t ht

/-- **What a call keeps, a run keeps**; the queue is all PENDING on the way, and `ok` is what is
    known of the calls. -/
theorem schedulerAfter_inv (env : StorageEnv) (db : Storage V) {I : SchedulerRun V → Prop}
    {ok : SchedulerCall V → Prop} {calls : List (SchedulerCall V)}
    (hok : ∀ call ∈ calls, ok call) (hstart : I (schedulerStart db))
    (hstep : ∀ s call, Conserved s → ok call → I s → I (schedulerStep env s call)) :
    Conserved (schedulerAfter env db calls) ∧ I (schedulerAfter env db calls) := by
  have hboth : ∀ (s : SchedulerRun V) call s', (Conserved s ∧ I s) → ok call →
      some (schedulerStep env s call) = some s' → Conserved s' ∧ I s' := by
    intro s call s' hs hcall hs'
    cases hs'
    exact ⟨step_conserved env hs.1 call, hstep s call hs.1 hcall hs.2⟩
  have halong : Along (fun s call => some (schedulerStep env s call)) (fun _ call => ok call)
      (schedulerStart db) calls := along_of_forall fun call hc _ => hok call hc
  exact run_inv_along hboth ⟨conserved_start db, hstart⟩ halong
    (run_some (schedulerStep env) calls (schedulerStart db))

/-- **Every reachable scheduler keeps its commands.** -/
theorem schedulerAfter_conserved (env : StorageEnv) (db : Storage V)
    (calls : List (SchedulerCall V)) : Conserved (schedulerAfter env db calls) :=
  (schedulerAfter_inv (I := fun _ => True) env db (fun _ _ => trivial) trivial
    fun _ _ _ (_ : True) _ => trivial).1

/-- Where every adapter can be written to, the writes are the commands recorded. -/
theorem schedulerAfter_writes (env : StorageEnv) (db : Storage V) {calls : List (SchedulerCall V)}
    (hw : ∀ adapter, .tick adapter ∈ calls → adapter.write_command.isSome = true) :
    (schedulerAfter env db calls).writes.map Command.order =
      (schedulerAfter env db calls).turns.map fun t => t.recorded.order := by
  have hok : ∀ call ∈ calls, ∀ adapter, call = .tick adapter →
      adapter.write_command.isSome = true := by
    rintro _ hmem adapter rfl
    exact hw adapter hmem
  refine (schedulerAfter_inv (I := fun s => s.writes.map Command.order =
    s.turns.map fun t => t.recorded.order) env db hok rfl ?_).2
  intro s call h hcall hs
  cases call with
  | submit c => exact hs
  | tick adapter =>
    obtain ⟨turns, hturns, htick⟩ := tick_of_conserved env adapter h
    simp only [schedulerStep, htick, List.map_append, hs, turns_recorded hturns,
      turns_written (hcall adapter rfl) hturns]

/-- **The store is what was recorded**, command by command and in order. -/
theorem schedulerAfter_recorded (env : StorageEnv) (db : Storage V)
    (calls : List (SchedulerCall V)) :
    (schedulerAfter env db calls).db =
      ((schedulerAfter env db calls).turns.map fun t => t.recorded).foldl
        (storageAppendCommand env) db := by
  have hok : ∀ call ∈ calls, True := fun _ _ => trivial
  refine (schedulerAfter_inv (I := fun s => s.db =
    (s.turns.map fun t => t.recorded).foldl (storageAppendCommand env) db) env db hok rfl ?_).2
  intro s call h _ hs
  cases call with
  | submit c => exact hs
  | tick adapter =>
    obtain ⟨turns, -, htick⟩ := tick_of_conserved env adapter h
    simp only [schedulerStep, htick, List.map_append, List.foldl_append]
    rw [← hs]

/-! ## Conservation -/

/-- **Commands are neither lost, repeated, reordered nor changed.** Whatever the calls were and
    whatever the adapters and the store answered, the commands written so far and the commands
    recorded so far are each, followed by the queue, the commands accepted, in their order and
    with all fields but the state and the message as they were; and the store is what appending
    the recorded ones, in that order, makes of it. Every command a tick took ended;
    the next tick empties the queue and returns how many it took; a refused submit leaves the
    scheduler and the caller's command alone. -/
theorem scheduler_conserves_commands (env : StorageEnv) (db : Storage V)
    (calls : List (SchedulerCall V))
    (hw : ∀ adapter, .tick adapter ∈ calls → adapter.write_command.isSome = true) :
    let s := schedulerAfter env db calls
    (s.writes ++ s.scheduler.queue).map Command.order = s.accepted.map Command.order ∧
    (s.turns.map (fun t => t.recorded) ++ s.scheduler.queue).map Command.order =
      s.accepted.map Command.order ∧
    s.db = (s.turns.map fun t => t.recorded).foldl (storageAppendCommand env) db ∧
    (∀ t ∈ s.turns, t.recorded.state = .verified ∨ t.recorded.state = .failed) ∧
    s.scheduler.queue.length ≤ commandQueueMax ∧
    (∀ c ∈ s.scheduler.queue, c.state = .pending) ∧
    (∀ adapter, adapter.write_command.isSome = true →
      let (scheduler, l) := commandSchedulerTickCall env adapter s.scheduler (s.writes, s.db)
      scheduler.queue = [] ∧
      l.processed = s.scheduler.queue.length ∧
      l.turns.map (fun t => t.recorded.order) = s.scheduler.queue.map Command.order ∧
      (∃ written, l.out.1 = s.writes ++ written ∧
        written.map Command.order = s.scheduler.queue.map Command.order) ∧
      l.out.2 = (l.turns.map fun t => t.recorded).foldl (storageAppendCommand env) s.db ∧
      ∀ t ∈ l.turns, t.recorded.state = .verified ∨ t.recorded.state = .failed) ∧
    ∀ command,
      ((commandSchedulerSubmitCall s.scheduler command).1 = -1 ∧
        (commandSchedulerSubmitCall s.scheduler command).2 = (s.scheduler, command)) ∨
      ((commandSchedulerSubmitCall s.scheduler command).1 = 0 ∧
        (commandSchedulerSubmitCall s.scheduler command).2.2 =
          { command with
            command_id := if command.command_id = 0 then s.scheduler.next_command_id
              else command.command_id
            state := .pending }) := by
  intro s
  have hkept : Conserved s := schedulerAfter_conserved env db calls
  have hwrites : s.writes.map Command.order = s.turns.map (fun t => t.recorded.order) :=
    schedulerAfter_writes env db hw
  refine ⟨?_, ?_, schedulerAfter_recorded env db calls, hkept.ended,
    s.scheduler.fits, hkept.pending, ?_, ?_⟩
  · rw [List.map_append, hwrites, hkept.recorded]
  · rw [List.map_append, List.map_map]
    exact hkept.recorded
  · intro adapter hadapter
    obtain ⟨turns, hturns, hcall⟩ := tick_of_conserved env adapter hkept
    rw [hcall]
    exact ⟨rfl, rfl, turns_recorded hturns, ⟨_, rfl, turns_written hadapter hturns⟩, rfl,
      turns_ended hturns⟩
  · intro command
    rcases submitCall_cases s.scheduler command with ⟨_, hfull⟩ | ⟨_, hacc⟩
    · rw [hfull]
      exact .inl ⟨rfl, rfl⟩
    · refine .inr ⟨hacc.ret, ?_⟩
      rw [hacc.command]
      unfold assignId
      split_ifs <;> rfl

/-- Two submits, a tick whose first write fails, and a submit after it. -/
theorem scheduler_conserves_commands_run :
    let s := schedulerAfter answersOk openStore
      [.submit (pcsCommand 0), .submit (pcsCommand 7),
        .tick ⟨.modbusRtu, some fun k => if k = 0 then -1 else 0⟩, .submit (pcsCommand 0)]
    s.accepted.map (fun c => c.command_id) = [1, 7, 8] ∧
    s.turns.map (fun t => t.recorded.state) = [.failed, .verified] ∧
    s.db.commands.rows.map Prod.fst = [1, 2] ∧
    (s.writes ++ s.scheduler.queue).map Command.order = s.accepted.map Command.order ∧
    s.db = (s.turns.map fun t => t.recorded).foldl (storageAppendCommand answersOk) openStore := by
  intro s
  have hw : ∀ adapter, SchedulerCall.tick adapter ∈
      [.submit (pcsCommand 0), .submit (pcsCommand 7),
        .tick ⟨.modbusRtu, some fun k => if k = 0 then -1 else 0⟩, .submit (pcsCommand 0)] →
      adapter.write_command.isSome = true := by
    intro adapter hmem
    simp only [List.mem_cons, SchedulerCall.tick.injEq, List.not_mem_nil, or_false, false_or,
      reduceCtorEq] at hmem
    rw [hmem]
    rfl
  have hkept := scheduler_conserves_commands answersOk openStore _ hw
  exact ⟨rfl, rfl, rfl, hkept.1, hkept.2.2.1⟩

/-! ## VERIFIED and written -/

theorem tickTurn_verifiedMeansWritten (adapter : DeviceAdapter) {f : Nat → Int}
    (hw : adapter.write_command = some f) (k : Nat) (cmd : Command V) :
    ((tickTurn adapter k cmd).recorded.state = .verified →
      ∃ c, (tickTurn adapter k cmd).wrote = some (c, 0) ∧
        c.order = (tickTurn adapter k cmd).recorded.order) ∧
    ((tickTurn adapter k cmd).recorded.state ≠ .verified →
      (tickTurn adapter k cmd).recorded.state = .failed) := by
  obtain ⟨horder, hended⟩ := tickTurn_recorded adapter k cmd
  refine ⟨?_, fun hne => hended.resolve_left hne⟩
  intro hver
  have hk : f k = 0 := by
    by_contra hne
    have hfail : (tickTurn adapter k cmd).recorded.state = .failed := by
      show (tickOutcome adapter k cmd).state = .failed
      rw [tickOutcome_failed adapter k cmd hw hne]
    rw [hfail] at hver
    cases hver
  refine ⟨{ cmd with state := .sent }, ?_, ?_⟩
  · simp [tickTurn, hw, hk]
  · rw [horder]
    rfl

/-- **When VERIFIED means written.** On every reachable scheduler and for every plug-in the
    registry accepts, a tick records as VERIFIED only what the plug-in wrote, and the rest as
    FAILED, exactly if the plug-in has a `write_command` or nothing is queued: registration does
    not ask for the callback, and the tick takes its absence for success. -/
theorem tick_verified_iff_written (env : StorageEnv) (db : Storage V)
    (calls : List (SchedulerCall V)) (reg : PluginRegistry V) (adapter : DevicePlugin V)
    (_haccepted : (adapterRegistryRegister reg adapter).1 = .ok) :
    let s := schedulerAfter env db calls
    VerifiedMeansWritten
        (commandSchedulerTickCall env adapter.toDeviceAdapter s.scheduler (s.writes, s.db)).2 ↔
      adapter.write_command.isSome = true ∨ s.scheduler.queue = [] := by
  intro s
  have hkept : Conserved s := schedulerAfter_conserved env db calls
  obtain ⟨turns, hturns, hcall⟩ := tick_of_conserved env adapter.toDeviceAdapter hkept
  rw [hcall]
  constructor
  · intro hall
    cases hw : adapter.write_command with
    | some f => exact .inl rfl
    | none =>
      refine .inr ?_
      generalize s.scheduler.queue = queue at hturns ⊢
      cases hturns with
      | nil => rfl
      | @cons cmd t queue turns hhead _ =>
        -- the first queued command was recorded as VERIFIED with nothing written
        obtain ⟨k, rfl⟩ := hhead
        have hver : (tickTurn adapter.toDeviceAdapter k cmd).recorded.state = .verified := by
          show (tickOutcome adapter.toDeviceAdapter k cmd).state = .verified
          rw [tickOutcome_none adapter.toDeviceAdapter k cmd hw]
          rfl
        obtain ⟨c, hwrote, _⟩ := (hall _ (List.mem_cons_self ..)).1 hver
        simp [tickTurn, hw] at hwrote
  · intro hor t ht
    rcases hor with hw | hempty
    · obtain ⟨f, hf⟩ := Option.isSome_iff_exists.mp hw
      obtain ⟨k, cmd, rfl⟩ := turns_mem hturns t ht
      exact tickTurn_verifiedMeansWritten adapter.toDeviceAdapter hf k cmd
    · rw [hempty] at hturns
      cases hturns
      cases ht

theorem tick_verified_iff_written_stub :
    (adapterRegistryRegister adapterRegistryInit (stubPlugin (some fun _ => 0))).1 = .ok ∧
    VerifiedMeansWritten
      (commandSchedulerTickCall answersOk (stubPlugin (some fun _ => 0)).toDeviceAdapter
        (schedulerAfter answersOk openStore [.submit (pcsCommand 0)]).scheduler
        ([], openStore)).2 :=
  ⟨rfl, (tick_verified_iff_written answersOk openStore [.submit (pcsCommand 0)]
    adapterRegistryInit (stubPlugin (some fun _ => 0)) rfl).mpr (.inl rfl)⟩

/-- A plug-in without a `write_command` is accepted, and a tick through it records a command as
    VERIFIED that was never written. -/
theorem tick_verifies_unwritten :
    (adapterRegistryRegister adapterRegistryInit (stubPlugin none)).1 = .ok ∧
    ¬VerifiedMeansWritten
      (commandSchedulerTickCall answersOk (stubPlugin none).toDeviceAdapter
        (schedulerAfter answersOk openStore [.submit (pcsCommand 0)]).scheduler
        ([], openStore)).2 := by
  refine ⟨rfl, ?_⟩
  intro h
  obtain ⟨_, hwrote, _⟩ := (h _ (List.mem_singleton.mpr rfl)).1 rfl
  cases hwrote

/-! ## Ids

The next id wraps around after `2^64 - 1`, so "past every id so far" is `id < next`, or `next = 0`
and there is no such id. -/

theorem succ_eq_zero_or_lt (a : UInt64) : a + 1 = 0 ∨ a < a + 1 := by
  have ha := a.toNat_lt
  rw [UInt64.lt_iff_toNat_lt, ← UInt64.toNat_inj, UInt64.toNat_add]
  simp only [UInt64.toNat_one, UInt64.toNat_zero]
  omega

theorem one_le_of_ne_zero {a : UInt64} (h : a ≠ 0) : 1 ≤ a := by
  rw [Ne, ← UInt64.toNat_inj, UInt64.toNat_zero] at h
  rw [UInt64.le_iff_toNat_le, UInt64.toNat_one]
  exact Nat.one_le_iff_ne_zero.mpr h

theorem le_of_lt_succ {a b : UInt64} (h : a < b + 1) : a ≤ b := by
  rw [UInt64.lt_iff_toNat_lt, UInt64.toNat_add, UInt64.toNat_one] at h
  rw [UInt64.le_iff_toNat_le]
  exact Nat.le_of_lt_succ (h.trans_le (Nat.mod_le _ _))

theorem le_of_succ_eq_zero (a : UInt64) {b : UInt64} (h : b + 1 = 0) : a ≤ b := by
  have ha := a.toNat_lt
  have hb := b.toNat_lt
  rw [← UInt64.toNat_inj, UInt64.toNat_add, UInt64.toNat_one, UInt64.toNat_zero] at h
  rw [UInt64.le_iff_toNat_le]
  omega

/-- What a step does to the ids: nothing, or it adds the assigned one. -/
theorem step_ids (env : StorageEnv) (s : SchedulerRun V) (call : SchedulerCall V) :
    ((schedulerStep env s call).ids = s.ids ∧
      (schedulerStep env s call).scheduler.next_command_id = s.scheduler.next_command_id ∧
      ∀ c, call = .submit c → commandQueueMax ≤ s.scheduler.queue.length) ∨
    ∃ c, call = .submit c ∧ s.scheduler.queue.length < commandQueueMax ∧
      (schedulerStep env s call).ids =
        s.ids ++ [(assignId s.scheduler.next_command_id c.command_id).1] ∧
      (schedulerStep env s call).scheduler.next_command_id =
        (assignId s.scheduler.next_command_id c.command_id).2 := by
  cases call with
  | tick adapter =>
    refine .inl ⟨rfl, rfl, ?_⟩
    intro c hc
    cases hc
  | submit c =>
    rcases submitCall_cases s.scheduler c with ⟨hle, hfull⟩ | ⟨hlt, hacc⟩
    · refine .inl ⟨?_, ?_, fun _ _ => hle⟩
      · simp [schedulerStep, SchedulerRun.ids, hfull]
      · simp [schedulerStep, hfull]
    · refine .inr ⟨c, rfl, hlt, ?_, hacc.next⟩
      simp [schedulerStep, SchedulerRun.ids, hacc.ret, hacc.command]

/-- The ids rise, and the next one is past them. -/
structure Rising (s : SchedulerRun V) : Prop where
  sorted : s.ids.Pairwise (· < ·)
  below : ∀ id ∈ s.ids, s.scheduler.next_command_id = 0 ∨ id < s.scheduler.next_command_id

theorem step_rising (env : StorageEnv) {s : SchedulerRun V} (h : Rising s)
    (call : SchedulerCall V) (hok : FreshId s call) : Rising (schedulerStep env s call) := by
  rcases step_ids env s call with ⟨hids, hnext, _⟩ | ⟨c, rfl, hroom, hids, hnext⟩
  · refine ⟨?_, ?_⟩
    · rw [hids]
      exact h.sorted
    · rw [hids, hnext]
      exact h.below
  · obtain ⟨hwrap, hfresh⟩ := hok hroom
    -- the id it is given is at least the next one, and the new next one follows it
    have hassign : ∃ id, assignId s.scheduler.next_command_id c.command_id = (id, id + 1) ∧
        s.scheduler.next_command_id ≤ id := by
      unfold assignId
      rcases hfresh with hz | hle
      · exact ⟨_, if_pos hz, UInt64.le_refl _⟩
      · split_ifs
        · exact ⟨_, rfl, UInt64.le_refl _⟩
        · exact ⟨_, rfl, hle⟩
    obtain ⟨id, hassign, hle⟩ := hassign
    have hlt : ∀ a ∈ s.ids, a < id := by
      intro a ha
      exact UInt64.lt_of_lt_of_le ((h.below a ha).resolve_left hwrap) hle
    rw [hassign] at hids hnext
    refine ⟨?_, ?_⟩
    · rw [hids, List.pairwise_append]
      refine ⟨h.sorted, List.pairwise_singleton _ _, ?_⟩
      intro a ha b hb
      rw [List.mem_singleton.mp hb]
      exact hlt a ha
    · intro a ha
      rw [hnext]
      rw [hids] at ha
      rcases succ_eq_zero_or_lt id with hz | hsucc
      · exact .inl hz
      · rcases List.mem_append.mp ha with ha | ha
        · exact .inr (UInt64.lt_trans (hlt a ha) hsucc)
        · rw [List.mem_singleton.mp ha]
          exact .inr hsucc

/-- The next id follows an accepted one, or nothing has been accepted. -/
def FollowsId (s : SchedulerRun V) : Prop :=
  (s.ids = [] ∧ s.scheduler.next_command_id = 1) ∨
    ∃ id ∈ s.ids, s.scheduler.next_command_id = id + 1

theorem step_followsId (env : StorageEnv) {s : SchedulerRun V} (h : FollowsId s)
    (call : SchedulerCall V) : FollowsId (schedulerStep env s call) := by
  unfold FollowsId
  rcases step_ids env s call with ⟨hids, hnext, _⟩ | ⟨c, _, _, hids, hnext⟩
  · rw [hids, hnext]
    exact h
  · refine .inr ?_
    rw [hids, hnext]
    unfold assignId
    by_cases hz : c.command_id = 0
    · rw [if_pos hz]
      exact ⟨_, List.mem_append_right _ (List.mem_singleton.mpr rfl), rfl⟩
    · rw [if_neg hz]
      by_cases hle : s.scheduler.next_command_id ≤ c.command_id
      · rw [if_pos hle]
        exact ⟨_, List.mem_append_right _ (List.mem_singleton.mpr rfl), rfl⟩
      · rw [if_neg hle]
        rcases h with ⟨_, hone⟩ | ⟨id, hid, hnext⟩
        · rw [hone] at hle
          exact absurd (one_le_of_ne_zero hz) hle
        · exact ⟨id, List.mem_append_left _ hid, hnext⟩

/-- A submit outside the condition puts an id where a greater or equal one went before. -/
theorem step_not_sorted (env : StorageEnv) {s : SchedulerRun V} (h : FollowsId s)
    (call : SchedulerCall V) (hbad : ¬FreshId s call) :
    ¬(schedulerStep env s call).ids.Pairwise (· < ·) := by
  cases call with
  | tick adapter => exact absurd trivial hbad
  | submit c =>
    simp only [FreshId, not_forall] at hbad
    obtain ⟨hroom, hbad⟩ := hbad
    rcases step_ids env s (.submit c) with ⟨_, _, hfull⟩ | ⟨c', hc', _, hids, _⟩
    · exact absurd (hfull c rfl) (Nat.not_le.mpr hroom)
    · cases hc'
      intro hsorted
      rw [hids, List.pairwise_append] at hsorted
      have habove : ∀ id ∈ s.ids, id < (assignId s.scheduler.next_command_id c.command_id).1 :=
        fun id hid => hsorted.2.2 id hid _ (List.mem_singleton.mpr rfl)
      by_cases hwrap : s.scheduler.next_command_id = 0
      · rcases h with ⟨_, hone⟩ | ⟨id, hid, hnext⟩
        · rw [hwrap] at hone
          cases hone
        · rw [hwrap] at hnext
          exact UInt64.not_lt.mpr (le_of_succ_eq_zero _ hnext.symm) (habove id hid)
      · simp only [not_and, not_or] at hbad
        obtain ⟨hz, hlt⟩ := hbad hwrap
        rcases h with ⟨_, hone⟩ | ⟨id, hid, hnext⟩
        · rw [hone] at hlt
          exact hlt (one_le_of_ne_zero hz)
        · have hid' := habove id hid
          rw [assignId, if_neg hz, if_neg hlt] at hid'
          rw [hnext, UInt64.not_le] at hlt
          exact UInt64.not_lt.mpr (le_of_lt_succ hlt) hid'

theorem step_not_sorted_stays (env : StorageEnv) {s : SchedulerRun V} (call : SchedulerCall V)
    (hbad : ¬s.ids.Pairwise (· < ·)) : ¬(schedulerStep env s call).ids.Pairwise (· < ·) := by
  rcases step_ids env s call with ⟨hids, _, _⟩ | ⟨_, _, _, hids, _⟩
  · rw [hids]
    exact hbad
  · rw [hids, List.pairwise_append]
    exact fun h => hbad h.1

/-- **When ids are unique and rising.** In a run of submits and ticks the ids of the accepted
    commands rise strictly exactly if every accepted submit brought no id or one that the
    scheduler had not passed, and the next id never wrapped around before one. The scheduler
    moves its next id past a caller's id that lies ahead and does nothing about one that lies
    behind. -/
theorem accepted_ids_rise_iff (env : StorageEnv) (db : Storage V)
    (calls : List (SchedulerCall V)) :
    (schedulerAfter env db calls).ids.Pairwise (· < ·) ↔
      Along (fun s call => some (schedulerStep env s call)) FreshId (schedulerStart db) calls := by
  have hrun := run_some (schedulerStep env) calls (schedulerStart db)
  constructor
  · intro hsorted
    have hinv : ∀ (s : SchedulerRun V) call s', FollowsId s →
        some (schedulerStep env s call) = some s' → FollowsId s' := by
      intro s call s' hs hstep
      cases hstep
      exact step_followsId env hs call
    have hbad : ∀ (s : SchedulerRun V) call s', FollowsId s → ¬FreshId s call →
        some (schedulerStep env s call) = some s' → ¬s'.ids.Pairwise (· < ·) := by
      intro s call s' hs hok hstep
      cases hstep
      exact step_not_sorted env hs call hok
    have hkeep : ∀ (s : SchedulerRun V) call s',
        ¬s.ids.Pairwise (· < ·) → some (schedulerStep env s call) = some s' →
          ¬s'.ids.Pairwise (· < ·) := by
      intro s call s' hs hstep
      cases hstep
      exact step_not_sorted_stays env call hs
    exact along_of_run hinv hbad hkeep (.inl ⟨rfl, rfl⟩) hrun (not_not.mpr hsorted)
  · intro halong
    have hstart : Rising (schedulerStart db) := ⟨.nil, fun id hid => (by cases hid)⟩
    refine (run_inv_along (I := Rising) ?_ hstart halong hrun).sorted
    intro s call s' hs hok hstep
    cases hstep
    exact step_rising env hs call hok

/-- Two accepted submits with the id `5`. -/
theorem accepted_ids_repeat :
    ¬(schedulerAfter answersOk openStore
      [.submit (pcsCommand 5), .submit (pcsCommand 5)]).ids.Pairwise (· < ·) := by
  have hids : (schedulerAfter answersOk openStore
      [.submit (pcsCommand 5), .submit (pcsCommand 5)]).ids = [5, 5] := rfl
  rw [hids]
  decide

end Proof
end EdgeFlow
