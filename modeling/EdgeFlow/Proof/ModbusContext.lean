import EdgeFlow.Lib.Run
import EdgeFlow.Ingress.ModbusLibmodbus

/-!
# One libmodbus context at a time

The calls the gateway makes on libmodbus are run through the library's own bookkeeping
(`libmodbusStep`), which refuses a call on a dead context. Between two calls of the module the
bookkeeping has one of two shapes: every context is freed and `g_ctx` is `NULL` (`NoContext`), or
all but the newest are freed, the newest is connected and `g_ctx` names it (`HoldsContext`). Every
function of the module leads from one of the shapes to one of them, so the lifecycle of the
contexts is read off the shapes.
-/

set_option autoImplicit false

namespace EdgeFlow
namespace Proof

open Lib

/-! ## What the bookkeeping says about a list of calls -/

theorem onContext_eq_some {T T' : ModbusTable} {ctx : Nat} {f : ModbusT → Option (Option ModbusT)}
    (h : onContext T ctx f = some T') :
    ∃ m m', T[ctx]? = some (some m) ∧ f m = some m' ∧ T' = T.set ctx m' := by
  unfold onContext at h
  split at h
  · rename_i m hm
    obtain ⟨m', hm', rfl⟩ := Option.map_eq_some_iff.mp h
    exact ⟨m, m', hm, hm', rfl⟩
  · cases h

/-- `1` when a context has been freed. -/
def freedIn (T : ModbusTable) (ctx : Nat) : Nat := if T[ctx]? = some none then 1 else 0

theorem freedIn_of_live {T : ModbusTable} {c : Nat} {m : ModbusT} (hm : T[c]? = some (some m)) :
    freedIn T c = 0 := by
  simp [freedIn, hm]

/-- A call on a live context changes the count of that context only. -/
theorem freedIn_set {T : ModbusTable} {c : Nat} {m : ModbusT} (hm : T[c]? = some (some m))
    (m' : Option ModbusT) (ctx : Nat) :
    freedIn (T.set c m') ctx = freedIn T ctx + if c = ctx ∧ m' = none then 1 else 0 := by
  by_cases hc : c = ctx
  · subst hc
    have hlt := (List.getElem?_eq_some_iff.mp hm).1
    rw [freedIn_of_live hm, freedIn, List.getElem?_set_self hlt]
    simp
  · simp [freedIn, List.getElem?_set_ne hc, hc]

theorem freedIn_append_some (T : ModbusTable) (m : ModbusT) (ctx : Nat) :
    freedIn (T ++ [some m]) ctx = freedIn T ctx := by
  unfold freedIn
  rcases Nat.lt_trichotomy ctx T.length with hlt | heq | hgt
  · rw [List.getElem?_append_left hlt]
  · subst heq
    simp
  · rw [List.getElem?_append_right (by omega),
      List.getElem?_eq_none (l := [some m]) (by simp; omega),
      List.getElem?_eq_none (l := T) (by omega)]

/-- **One call accounts for what it frees**, makes the context it says, and loses none. -/
theorem libmodbusStep_accounts {T T' : ModbusTable} {call : ModbusCall}
    (h : libmodbusStep T call = some T') :
    T.length ≤ T'.length ∧ (∀ ctx, call.makes = some ctx → ctx < T'.length) ∧
      ∀ ctx, freedIn T' ctx = freedIn T ctx + if call = .free ctx then 1 else 0 := by
  cases call with
  | new want backend made =>
    cases made with
    | none =>
      obtain rfl := Option.some.inj h
      exact ⟨Nat.le_refl _, by simp [ModbusCall.makes], by simp⟩
    | some c =>
      simp only [libmodbusStep] at h
      split at h
      · rename_i hc
        obtain rfl := Option.some.inj h
        refine ⟨by simp, ?_, fun ctx => ?_⟩
        · intro ctx hctx
          obtain rfl : c = ctx := Option.some.inj hctx
          simp [hc]
        · rw [freedIn_append_some]
          simp
      · cases h
  | free c =>
    obtain ⟨m, m', hm, hf, rfl⟩ := onContext_eq_some h
    split at hf
    · cases hf
    · obtain rfl := Option.some.inj hf
      refine ⟨by simp, by simp [ModbusCall.makes], fun ctx => ?_⟩
      rw [freedIn_set hm]
      simp only [ModbusCall.free.injEq, and_true]
  | readRegisters c ok =>
    obtain ⟨m, m', hm, hf, rfl⟩ := onContext_eq_some h
    split at hf
    · obtain rfl := Option.some.inj hf
      exact ⟨by simp, by simp [ModbusCall.makes], fun ctx => by simp [freedIn_set hm]⟩
    · cases hf
  | setSlave c slave | setResponseTimeout c sec usec | connect c ok | close c =>
    obtain ⟨m, m', hm, hf, rfl⟩ := onContext_eq_some h
    obtain rfl := Option.some.inj hf
    exact ⟨by simp, by simp [ModbusCall.makes], fun ctx => by simp [freedIn_set hm]⟩

/-- The same over a whole list of calls. -/
theorem libmodbus_accounts :
    ∀ {calls : List ModbusCall} {T T' : ModbusTable}, run libmodbusStep T calls = some T' →
      T.length ≤ T'.length ∧ (∀ ctx, ∀ call ∈ calls, call.makes = some ctx → ctx < T'.length) ∧
        ∀ ctx, freedIn T' ctx = freedIn T ctx + calls.count (.free ctx) := by
  intro calls
  induction calls with
  | nil =>
    intro T T' h
    obtain rfl := Option.some.inj h
    exact ⟨Nat.le_refl _, by simp, by simp⟩
  | cons call calls ih =>
    intro T T' h
    obtain ⟨U, hU, hr⟩ := run_cons_eq_some.mp h
    obtain ⟨hlen, hmakes, hfreed⟩ := libmodbusStep_accounts hU
    obtain ⟨hlen', hmakes', hfreed'⟩ := ih hr
    refine ⟨Nat.le_trans hlen hlen', ?_, fun ctx => ?_⟩
    · intro ctx c hc hm
      rcases List.mem_cons.mp hc with rfl | hc
      · exact Nat.lt_of_lt_of_le (hmakes ctx hm) hlen'
      · exact hmakes' ctx c hc hm
    · rw [hfreed', hfreed, List.count_cons]
      simp only [beq_iff_eq]
      omega

/-! ## The two shapes between calls -/

/-- No context alive. -/
def deadTable (n : Nat) : ModbusTable := List.replicate n none

/-- The newest context alive. -/
def heldTable (n : Nat) (m : ModbusT) : ModbusTable := deadTable n ++ [some m]

def AtMostOne (T : ModbusTable) : Prop := liveContexts T ≤ 1

@[simp] theorem liveContexts_dead (n : Nat) : liveContexts (deadTable n) = 0 := by
  simp [liveContexts, deadTable]

@[simp] theorem liveContexts_held (n : Nat) (m : ModbusT) : liveContexts (heldTable n m) = 1 := by
  have h := liveContexts_dead n
  unfold liveContexts at h ⊢
  rw [heldTable, List.countP_append, h]
  rfl

theorem atMostOne_dead (n : Nat) : AtMostOne (deadTable n) := by simp [AtMostOne]

theorem atMostOne_held (n : Nat) (m : ModbusT) : AtMostOne (heldTable n m) := by simp [AtMostOne]

@[simp] theorem heldTable_getElem (n : Nat) (m : ModbusT) :
    (heldTable n m)[n]? = some (some m) := by
  simp [heldTable, deadTable]

theorem onContext_held (n : Nat) (m : ModbusT) (f : ModbusT → Option (Option ModbusT)) :
    onContext (heldTable n m) n f = (f m).map fun m' => deadTable n ++ [m'] := by
  unfold onContext
  simp only [heldTable_getElem]
  congr 1
  funext m'
  simp [heldTable, deadTable]

theorem deadTable_snoc (n : Nat) : deadTable n ++ [none] = deadTable (n + 1) := by
  simp [deadTable, List.replicate_succ']

/-- `g_ctx` is `NULL`, and every context made so far is freed. -/
structure NoContext (s : ModbusState) : Prop where
  ctx : s.g_ctx = none
  table : Through libmodbusStep AtMostOne [] s.calls (deadTable s.created)

/-- `g_ctx` is the newest context, which is connected and was made for `g_transport`. -/
structure HoldsContext (s : ModbusState) (c : Nat) (m : ModbusT) : Prop where
  ctx : s.g_ctx = some c
  created : s.created = c + 1
  connected : m.connected = true
  want : m.want = s.g_transport
  table : Through libmodbusStep AtMostOne [] s.calls (heldTable c m)

def ContextInv (s : ModbusState) : Prop := NoContext s ∨ ∃ c m, HoldsContext s c m

theorem contextInv_start : ContextInv modbusStart := by
  left
  exact ⟨rfl, atMostOne_dead 0, rfl⟩

/-! ## What the functions do to the shapes -/

theorem through_free (c : Nat) {m : ModbusT} (hm : m.connected = false) :
    Through libmodbusStep AtMostOne (heldTable c m) [.free c] (deadTable (c + 1)) := by
  refine ⟨atMostOne_held c m, deadTable (c + 1), ?_, atMostOne_dead _, rfl⟩
  rw [libmodbusStep, onContext_held, hm, ← deadTable_snoc]
  rfl

/-- `modbus_close` and `modbus_free`, one after the other. -/
theorem through_close_free (c : Nat) (m : ModbusT) :
    Through libmodbusStep AtMostOne (heldTable c m) [.close c, .free c] (deadTable (c + 1)) := by
  refine ⟨atMostOne_held c m, heldTable c { m with connected := false }, onContext_held c m _, ?_⟩
  exact through_free c rfl

theorem shutdown_noContext {s : ModbusState} (h : ContextInv s) :
    NoContext (modbusLibmodbusShutdown s) := by
  rcases h with hidle | ⟨c, m, hholds⟩
  · unfold modbusLibmodbusShutdown
    rw [hidle.ctx]
    exact hidle
  · have ht := hholds.table.append (through_close_free c m)
    rw [← hholds.created] at ht
    unfold modbusLibmodbusShutdown
    rw [hholds.ctx]
    exact ⟨rfl, ht⟩

section
variable {V : Type}

/-- The context `ensure_context` makes, as far as the library is concerned. -/
def freshContext (cfg : GatewayConfig V) : ModbusT :=
  { modbusSetResponseTimeout (modbusInitCommon cfg.modbus_transport) 0
      (responseTimeoutUsec cfg.modbus_timeout_ms) with connected := true }

theorem setResponseTimeout_want (m : ModbusT) (sec usec : UInt32) :
    (modbusSetResponseTimeout m sec usec).want = m.want := by
  unfold modbusSetResponseTimeout
  split <;> rfl

theorem freshContext_want (cfg : GatewayConfig V) :
    (freshContext cfg).want = cfg.modbus_transport :=
  setResponseTimeout_want _ _ _

/-- A context is made and set up: alive, and connected or not as libmodbus answers. -/
theorem through_setup (cfg : GatewayConfig V) (n : Nat) (ok : Bool) :
    Through libmodbusStep AtMostOne (deadTable n)
      [.new cfg.modbus_transport (modbusBackend cfg) (some n),
        .setSlave n cfg.modbus_slave_id.toUInt32.toInt32,
        .setResponseTimeout n 0 (responseTimeoutUsec cfg.modbus_timeout_ms),
        .connect n ok]
      (heldTable n { freshContext cfg with connected := ok }) := by
  have hlen : n = (deadTable n).length := by simp [deadTable]
  refine ⟨atMostOne_dead n, heldTable n (modbusInitCommon cfg.modbus_transport), ?_, ?_⟩
  · rw [libmodbusStep, if_pos hlen]
    rfl
  · refine ⟨atMostOne_held _ _, _, onContext_held n _ _, atMostOne_held _ _, _,
      onContext_held n _ _, atMostOne_held _ _, _, onContext_held n _ _, atMostOne_held _ _, rfl⟩

/-- **`ensure_context` succeeds with a connected context for the wanted transport**, the one it
    found or a fresh one, and fails with none alive. -/
theorem ensureContext_spec (cfg : GatewayConfig V) (o : ModbusOutcome) {s : ModbusState}
    (h : ContextInv s) :
    ((ensureContext cfg o s = (0, s) ∧ ∃ c m, HoldsContext s c m ∧ m.want = cfg.modbus_transport) ∨
      ((ensureContext cfg o s).1 = 0 ∧
        HoldsContext (ensureContext cfg o s).2 s.created (freshContext cfg))) ∨
      ((ensureContext cfg o s).1 = -1 ∧ NoContext (ensureContext cfg o s).2) := by
  have hdown := shutdown_noContext h
  have hcreated : (modbusLibmodbusShutdown s).created = s.created := by
    unfold modbusLibmodbusShutdown
    split <;> rfl
  unfold ensureContext
  simp only
  split
  · -- the context at hand was made for this transport
    rename_i hreuse
    left; left
    rcases h with hidle | ⟨c, m, hholds⟩
    · rw [hidle.ctx] at hreuse
      exact absurd hreuse.1 (by simp)
    · exact ⟨rfl, c, m, hholds, by rw [hholds.want]; exact CStr.ext hreuse.2⟩
  · split
    · -- libmodbus made none
      right
      refine ⟨rfl, rfl, ?_⟩
      exact hdown.table.append ⟨atMostOne_dead _, _, rfl, atMostOne_dead _, rfl⟩
    · split
      · -- the connect failed: the fresh context is freed at once
        right
        have hset := through_setup cfg (modbusLibmodbusShutdown s).created false
        have hall := hdown.table.append (hset.append (through_free _ rfl))
        refine ⟨rfl, rfl, ?_⟩
        simpa only [List.append_assoc, List.cons_append, List.nil_append] using hall
      · left; right
        have hset := through_setup cfg (modbusLibmodbusShutdown s).created true
        refine ⟨rfl, ?_⟩
        rw [← hcreated]
        refine ⟨rfl, rfl, rfl, ?_, ?_⟩
        · rw [freshContext_want, CStr.copy_bytes]
        · exact (List.append_assoc _ _ _) ▸ hdown.table.append hset

/-- The second list goes on from the first without reading registers. -/
def WithoutReads (calls calls' : List ModbusCall) : Prop :=
  ∃ es, calls' = calls ++ es ∧ ∀ call ∈ es, ∀ ctx ok, call ≠ .readRegisters ctx ok

theorem WithoutReads.append {calls calls' es : List ModbusCall} (h : WithoutReads calls calls')
    (hes : ∀ call ∈ es, ∀ ctx ok, call ≠ .readRegisters ctx ok) :
    WithoutReads calls (calls' ++ es) := by
  obtain ⟨ds, rfl, hds⟩ := h
  refine ⟨ds ++ es, List.append_assoc .., fun call hc => ?_⟩
  rcases List.mem_append.mp hc with hc | hc
  · exact hds call hc
  · exact hes call hc

theorem shutdown_withoutReads (s : ModbusState) :
    WithoutReads s.calls (modbusLibmodbusShutdown s).calls := by
  have hrefl : WithoutReads s.calls s.calls := ⟨[], by simp⟩
  unfold modbusLibmodbusShutdown
  split
  · exact hrefl
  · exact hrefl.append (by simp)

/-- `ensure_context` reads no registers. -/
theorem ensureContext_withoutReads (cfg : GatewayConfig V) (o : ModbusOutcome) (s : ModbusState) :
    WithoutReads s.calls (ensureContext cfg o s).2.calls := by
  have hdown := shutdown_withoutReads s
  unfold ensureContext
  simp only
  split
  · exact ⟨[], by simp⟩
  · split
    · exact hdown.append (by simp)
    · split
      · exact (hdown.append (by simp)).append (by simp)
      · exact (hdown.append (by simp)).append (by simp)

/-- A read from the context that is held leaves the bookkeeping as it is. -/
theorem HoldsContext.read {s : ModbusState} {c : Nat} {m : ModbusT} (h : HoldsContext s c m)
    (ok : Bool) : HoldsContext { s with calls := s.calls ++ [.readRegisters c ok] } c m := by
  have hread : Through libmodbusStep AtMostOne (heldTable c m) [.readRegisters c ok]
      (heldTable c m) := by
    refine ⟨atMostOne_held c m, heldTable c m, ?_, atMostOne_held c m, rfl⟩
    rw [libmodbusStep, onContext_held, h.connected]
    rfl
  exact ⟨h.ctx, h.created, h.connected, h.want, h.table.append hread⟩

variable {tenth : UInt16 → V} {cfg : GatewayConfig V} {o : ModbusOutcome}
  {out : List (Telemetry V)} {s : ModbusState}

theorem ensureContext_success (h : ContextInv s) (hrc : (ensureContext cfg o s).1 = 0) :
    ∃ c m, HoldsContext (ensureContext cfg o s).2 c m ∧ m.want = cfg.modbus_transport := by
  rcases ensureContext_spec cfg o h with (⟨he, c, m, hm⟩ | ⟨_, hm⟩) | ⟨hf, _⟩
  · rw [he]
    exact ⟨c, m, hm⟩
  · exact ⟨s.created, freshContext cfg, hm, freshContext_want cfg⟩
  · rw [hf] at hrc
    exact absurd hrc (by decide)

/-- **The ways a poll goes**: too few slots, no context, a failed read, three points. -/
theorem poll_cases (tenth : UInt16 → V) (cfg : GatewayConfig V) (o : ModbusOutcome)
    (out : List (Telemetry V)) (h : ContextInv s) :
    (out.length < 3 ∧ modbusLibmodbusPoll tenth cfg o out s = (-1, out, s)) ∨
    (NoContext (ensureContext cfg o s).2 ∧
      modbusLibmodbusPoll tenth cfg o out s = (-1, out, (ensureContext cfg o s).2)) ∨
    ∃ c m, HoldsContext (ensureContext cfg o s).2 c m ∧ m.want = cfg.modbus_transport ∧
      (modbusLibmodbusPoll tenth cfg o out s =
        (-1, out, modbusLibmodbusShutdown { (ensureContext cfg o s).2 with
          calls := (ensureContext cfg o s).2.calls ++ [.readRegisters c false] }) ∨
      ((modbusLibmodbusPoll tenth cfg o out s).1 = 3 ∧
        (modbusLibmodbusPoll tenth cfg o out s).2.2 = { (ensureContext cfg o s).2 with
          calls := (ensureContext cfg o s).2.calls ++ [.readRegisters c true] })) := by
  by_cases hlen : out.length < 3
  · exact .inl ⟨hlen, by simp [modbusLibmodbusPoll, hlen]⟩
  · right
    by_cases hrc : (ensureContext cfg o s).1 = 0
    · right
      obtain ⟨c, m, hm, hw⟩ := ensureContext_success h hrc
      refine ⟨c, m, hm, hw, ?_⟩
      unfold modbusLibmodbusPoll
      simp only [hlen, if_false, hrc, ne_eq, not_true_eq_false, hm.ctx]
      cases o.regs with
      | none => exact .inl rfl
      | some regs =>
        right
        simp only [mapRegistersToTelemetry, hlen, if_false, Option.isSome_some, and_self]
    · left
      rcases ensureContext_spec cfg o h with (⟨he, _⟩ | ⟨he, _⟩) | ⟨_, hno⟩
      · exact absurd (congrArg Prod.fst he) hrc
      · exact absurd he hrc
      · refine ⟨hno, ?_⟩
        unfold modbusLibmodbusPoll
        simp only [hlen, if_false, ne_eq, hrc, not_false_eq_true, if_true]

theorem modbusAct_inv (h : ContextInv s) (act : ModbusAct V) :
    ContextInv (modbusAct tenth s act) := by
  cases act with
  | shutdown => exact .inl (shutdown_noContext h)
  | poll cfg o out =>
    rw [modbusAct]
    rcases poll_cases tenth cfg o out h with
      ⟨_, he⟩ | ⟨hno, he⟩ | ⟨c, m, hm, _, he | ⟨_, he⟩⟩
    · rw [he]
      exact h
    · rw [he]
      exact .inl hno
    · rw [he]
      exact .inl (shutdown_noContext (.inr ⟨c, m, hm.read false⟩))
    · rw [he]
      exact .inr ⟨c, m, hm.read true⟩

/-- **Every sequence of polls and shutdowns** leaves one of the two shapes. -/
theorem modbusActs_inv (tenth : UInt16 → V) (acts : List (ModbusAct V)) :
    ContextInv (acts.foldl (modbusAct tenth) modbusStart) := by
  have hrun := run_some (modbusAct tenth) acts modbusStart
  refine run_inv (I := ContextInv) ?_ contextInv_start hrun
  intro s act s' hs hstep
  obtain rfl := Option.some.inj hstep
  exact modbusAct_inv hs act

/-! ## The lifecycle -/

/-- Registers are read from a connected context that was made for `want`. -/
def ReadsFor (want : CStr 8) (T : ModbusTable) (call : ModbusCall) : Prop :=
  ∀ ctx ok, call = .readRegisters ctx ok →
    ∃ m, T[ctx]? = some (some m) ∧ m.connected = true ∧ m.want = want

/-- What one poll may do from a state: `mine` are the calls it makes on libmodbus. -/
structure PollDiscipline (tenth : UInt16 → V) (cfg : GatewayConfig V) (o : ModbusOutcome)
    (out : List (Telemetry V)) (s : ModbusState) (mine : List ModbusCall) : Prop where
  calls : (modbusLibmodbusPoll tenth cfg o out s).2.2.calls = s.calls ++ mine
  reads : ∃ T, run libmodbusStep [] s.calls = some T ∧
    Along libmodbusStep (ReadsFor cfg.modbus_transport) T mine
  failed_out : (modbusLibmodbusPoll tenth cfg o out s).1 = -1 →
    (modbusLibmodbusPoll tenth cfg o out s).2.1 = out
  failed_live : (modbusLibmodbusPoll tenth cfg o out s).1 = -1 →
    (∃ ctx, .connect ctx false ∈ mine ∨ .readRegisters ctx false ∈ mine) →
    ∃ T, run libmodbusStep [] (modbusLibmodbusPoll tenth cfg o out s).2.2.calls = some T ∧
      liveContexts T = 0

/-- The lifecycle of the contexts, in a state between two calls of the module. -/
structure ContextLifecycle (tenth : UInt16 → V) (s : ModbusState) : Prop where
  /-- At no time is a dead context used, or more than one alive. -/
  one_live : ∀ calls, calls <+: s.calls →
    ∃ T, run libmodbusStep [] calls = some T ∧ liveContexts T ≤ 1
  /-- `g_ctx` is there exactly when one context is alive and connected. -/
  held : ∃ T, run libmodbusStep [] s.calls = some T ∧
    (s.g_ctx.isSome ↔ liveContexts T = 1 ∧ ∀ m, some m ∈ T → m.connected = true) ∧
    ∀ ctx, s.g_ctx = some ctx →
      ∃ m, T[ctx]? = some (some m) ∧ m.connected = true ∧ m.want = s.g_transport
  /-- A context is freed once, when `g_ctx` lets go of it. -/
  freed_once : ∀ ctx, ∀ call ∈ s.calls, call.makes = some ctx →
    s.calls.count (.free ctx) = if s.g_ctx = some ctx then 0 else 1
  poll : ∀ cfg o out, ∃ mine, PollDiscipline tenth cfg o out s mine
  /-- Two polls in a row for one transport string share a context and one connection. -/
  reuse : ∀ cfg cfg' o o' out out',
    let p := modbusLibmodbusPoll tenth cfg o out s
    let p' := modbusLibmodbusPoll tenth cfg' o' out' p.2.2
    p.1 ≠ -1 → p'.1 ≠ -1 → cfg'.modbus_transport = cfg.modbus_transport →
      ∃ ctx, p.2.2.g_ctx = some ctx ∧ p'.2.2.g_ctx = some ctx ∧
        p'.2.2.calls = p.2.2.calls ++ [.readRegisters ctx true]

theorem ContextInv.through (h : ContextInv s) :
    ∃ T, Through libmodbusStep AtMostOne [] s.calls T := by
  rcases h with hno | ⟨c, m, hm⟩
  · exact ⟨_, hno.table⟩
  · exact ⟨_, hm.table⟩

/-- The bookkeeping of the calls, in each of the two shapes. -/
theorem ContextInv.held (h : ContextInv s) :
    ∃ T, run libmodbusStep [] s.calls = some T ∧
      (s.g_ctx.isSome ↔ liveContexts T = 1 ∧ ∀ m, some m ∈ T → m.connected = true) ∧
      ∀ ctx, s.g_ctx = some ctx →
        ∃ m, T[ctx]? = some (some m) ∧ m.connected = true ∧ m.want = s.g_transport := by
  rcases h with hno | ⟨c, m, hm⟩
  · refine ⟨_, hno.table.run, ?_, ?_⟩
    · simp [hno.ctx]
    · simp [hno.ctx]
  · refine ⟨_, hm.table.run, ?_, ?_⟩
    · simp only [hm.ctx, Option.isSome_some, liveContexts_held, true_and, true_iff]
      intro m' hm'
      have : m' = m := by simpa [heldTable, deadTable, List.mem_replicate] using hm'
      rw [this]
      exact hm.connected
    · intro ctx hctx
      rw [hm.ctx, Option.some.injEq] at hctx
      subst hctx
      exact ⟨m, heldTable_getElem c m, hm.connected, hm.want⟩

theorem ContextInv.freed_once (h : ContextInv s) :
    ∀ ctx, ∀ call ∈ s.calls, call.makes = some ctx →
      s.calls.count (.free ctx) = if s.g_ctx = some ctx then 0 else 1 := by
  intro ctx call hcall hmakes
  rcases h with hno | ⟨c, m, hm⟩
  · obtain ⟨_, hlt, hfreed⟩ := libmodbus_accounts hno.table.run
    have hctx : ctx < s.created := by simpa [deadTable] using hlt ctx call hcall hmakes
    have hcount := hfreed ctx
    simp only [freedIn, deadTable, List.getElem?_replicate, hctx, if_true] at hcount
    simpa [hno.ctx] using hcount.symm
  · obtain ⟨_, hlt, hfreed⟩ := libmodbus_accounts hm.table.run
    have hctx : ctx < c + 1 := by simpa [heldTable, deadTable] using hlt ctx call hcall hmakes
    have hcount := hfreed ctx
    rw [hm.ctx]
    by_cases hq : ctx = c
    · subst hq
      simpa [freedIn] using hcount.symm
    · have hold : (heldTable c m)[ctx]? = some none := by
        have hlt : ctx < c := by omega
        rw [heldTable, deadTable, List.getElem?_append_left (by simpa using hlt),
          List.getElem?_replicate, if_pos hlt]
      rw [if_neg (fun hc => hq (Option.some.inj hc).symm)]
      simpa [freedIn, hold] using hcount.symm

/-- The calls of a poll that reaches its read: none before or after it reads again. -/
theorem along_one_read {want : CStr 8} {T U : ModbusTable} {es rest : List ModbusCall} {c : Nat}
    {m : ModbusT} {ok : Bool} (hes : ∀ call ∈ es, ∀ ctx ok, call ≠ .readRegisters ctx ok)
    (hrun : run libmodbusStep T es = some U) (hm : U[c]? = some (some m))
    (hconn : m.connected = true) (hwant : m.want = want)
    (hrest : ∀ call ∈ rest, ∀ ctx ok, call ≠ .readRegisters ctx ok) :
    Along libmodbusStep (ReadsFor want) T (es ++ .readRegisters c ok :: rest) := by
  have hnone : ∀ {ls : List ModbusCall}, (∀ call ∈ ls, ∀ ctx ok, call ≠ .readRegisters ctx ok) →
      ∀ T, Along libmodbusStep (ReadsFor want) T ls := fun hls T =>
    along_of_forall fun call hc _ ctx ok hq => absurd hq (hls call hc ctx ok)
  refine (hnone hes T).append hrun ⟨?_, fun T' _ => hnone hrest T'⟩
  intro ctx ok' hq
  obtain ⟨rfl, rfl⟩ := ModbusCall.readRegisters.inj hq
  exact ⟨m, hm, hconn, hwant⟩

theorem poll_discipline (h : ContextInv s) (tenth : UInt16 → V) (cfg : GatewayConfig V)
    (o : ModbusOutcome) (out : List (Telemetry V)) :
    ∃ mine, PollDiscipline tenth cfg o out s mine := by
  obtain ⟨T, hT⟩ := h.through
  obtain ⟨es, hes, hno⟩ := ensureContext_withoutReads cfg o s
  have hstart : ∀ {U : ModbusTable}, run libmodbusStep [] (ensureContext cfg o s).2.calls = some U →
      run libmodbusStep T es = some U := by
    intro U hU
    rw [hes, run_append, hT.run] at hU
    exact hU
  rcases poll_cases tenth cfg o out h with ⟨_, he⟩ | ⟨hidle, he⟩ | ⟨c, m, hm, hwant, he | ⟨hrc, he⟩⟩
  · exact ⟨[], by simp [he], ⟨T, hT.run, trivial⟩, by simp [he], by simp⟩
  · refine ⟨es, by rw [he, hes], ⟨T, hT.run, ?_⟩, by simp [he], fun _ _ => ?_⟩
    · exact along_of_forall fun call hc _ ctx ok hq => absurd hq (hno call hc ctx ok)
    · rw [he]
      exact ⟨_, hidle.table.run, liveContexts_dead _⟩
  · have hdown := shutdown_noContext (.inr ⟨c, m, hm.read false⟩)
    refine ⟨es ++ .readRegisters c false :: [.close c, .free c], ?_, ⟨T, hT.run, ?_⟩, by simp [he],
      fun _ _ => ?_⟩
    · rw [he, modbusLibmodbusShutdown]
      simp [hm.ctx, hes]
    · exact along_one_read hno (hstart hm.table.run) (heldTable_getElem c m) hm.connected hwant
        (by simp)
    · rw [he]
      exact ⟨_, hdown.table.run, liveContexts_dead _⟩
  · refine ⟨es ++ .readRegisters c true :: [], ?_, ⟨T, hT.run, ?_⟩, ?_, ?_⟩
    · rw [he]
      simp [hes]
    · exact along_one_read hno (hstart hm.table.run) (heldTable_getElem c m) hm.connected hwant
        (by simp)
    · rw [hrc]
      exact fun hq => absurd hq (by decide)
    · rw [hrc]
      exact fun hq => absurd hq (by decide)

/-- A poll that succeeds ends with a context for its transport, and read it last. -/
theorem poll_success (h : ContextInv s) (hrc : (modbusLibmodbusPoll tenth cfg o out s).1 ≠ -1) :
    ∃ c m, HoldsContext (ensureContext cfg o s).2 c m ∧ m.want = cfg.modbus_transport ∧
      (modbusLibmodbusPoll tenth cfg o out s).2.2 = { (ensureContext cfg o s).2 with
        calls := (ensureContext cfg o s).2.calls ++ [.readRegisters c true] } := by
  rcases poll_cases tenth cfg o out h with ⟨_, he⟩ | ⟨_, he⟩ | ⟨c, m, hm, hwant, he | ⟨_, he⟩⟩
  · exact absurd (congrArg Prod.fst he) hrc
  · exact absurd (congrArg Prod.fst he) hrc
  · exact absurd (congrArg Prod.fst he) hrc
  · exact ⟨c, m, hm, hwant, he⟩

/-- `ensure_context` keeps the context it finds for its transport. -/
theorem ensureContext_reuse {c : Nat} {m : ModbusT} (hm : HoldsContext s c m)
    (hwant : m.want = cfg.modbus_transport) : ensureContext cfg o s = (0, s) := by
  have ht : s.g_transport.bytes = cfg.modbus_transport.bytes := by rw [← hm.want, hwant]
  simp [ensureContext, hm.ctx, ht]

theorem poll_reuse (h : ContextInv s) {cfg' : GatewayConfig V} {o' : ModbusOutcome}
    {out' : List (Telemetry V)}
    (hrc : (modbusLibmodbusPoll tenth cfg o out s).1 ≠ -1)
    (hrc' : (modbusLibmodbusPoll tenth cfg' o' out'
      (modbusLibmodbusPoll tenth cfg o out s).2.2).1 ≠ -1)
    (hsame : cfg'.modbus_transport = cfg.modbus_transport) :
    ∃ ctx, (modbusLibmodbusPoll tenth cfg o out s).2.2.g_ctx = some ctx ∧
      (modbusLibmodbusPoll tenth cfg' o' out'
        (modbusLibmodbusPoll tenth cfg o out s).2.2).2.2.g_ctx = some ctx ∧
      (modbusLibmodbusPoll tenth cfg' o' out'
        (modbusLibmodbusPoll tenth cfg o out s).2.2).2.2.calls =
          (modbusLibmodbusPoll tenth cfg o out s).2.2.calls ++ [.readRegisters ctx true] := by
  obtain ⟨c, m, hm, hwant, he⟩ := poll_success h hrc
  have hheld := hm.read true
  rw [← he] at hheld
  obtain ⟨c', m', hm', _, he'⟩ := poll_success (.inr ⟨c, m, hheld⟩) hrc'
  rw [ensureContext_reuse hheld (hwant.trans hsame.symm)] at hm' he'
  obtain rfl : c = c' := Option.some.inj (hheld.ctx.symm.trans hm'.ctx)
  exact ⟨c, hheld.ctx, by rw [he']; exact hheld.ctx, by rw [he']⟩

/-- **Modbus contexts, over any sequence of polls and shutdowns.** -/
theorem modbus_context_lifecycle (tenth : UInt16 → V) (acts : List (ModbusAct V)) :
    ContextLifecycle tenth (acts.foldl (modbusAct tenth) modbusStart) := by
  have h := modbusActs_inv tenth acts
  obtain ⟨T, hT⟩ := h.through
  exact
    { one_live := hT.of_isPrefix
      held := h.held
      freed_once := h.freed_once
      poll := fun cfg o out => poll_discipline h tenth cfg o out
      reuse := fun _ _ _ _ _ _ hrc hrc' hsame => poll_reuse h hrc hrc' hsame }

/-- Two polls that succeed, on one context, and the shutdown that gives it back. -/
example :
    let answer : ModbusOutcome := ⟨true, true, some (762, 230, 900), 5⟩
    let slots := List.replicate 3 (telemetryInit 0 [] [] (0 : ℚ) [] 0)
    let poll := modbusLibmodbusPoll (fun r => (r.toNat : ℚ) / 10) (gatewayConfigDefaults ℚ) answer
      slots
    (poll modbusStart).1 = 3 ∧ (poll (poll modbusStart).2.2).1 = 3 ∧
      (poll (poll modbusStart).2.2).2.2.calls =
        (poll modbusStart).2.2.calls ++ [.readRegisters 0 true] ∧
      (modbusLibmodbusShutdown (poll (poll modbusStart).2.2).2.2).calls.drop 4 =
        [.readRegisters 0 true, .readRegisters 0 true, .close 0, .free 0] := by
  decide

end

end Proof
end EdgeFlow
