import Mathlib.Algebra.Order.Ring.Rat
import EdgeFlow.Core.Timers
import EdgeFlow.Proof.ModbusContext

/-!
# The durations handed to the system

The timer and the sleep split their milliseconds into seconds and nanoseconds, and are right for
every `uint32_t`. The Modbus response timeout goes to libmodbus as microseconds with no seconds
beside them: libmodbus takes at most `999999` of them, so the configured timeout comes into force
exactly up to `999` ms, and above that the library's own default stays (or, where the product
wraps, some other number of microseconds).
-/

set_option autoImplicit false

namespace EdgeFlow
namespace Proof

open Lib

/-! ## What it means for a pair to be right -/

/-- The pair is `ms` milliseconds, in the range the kernel takes, and the one signed product in
    it does not overflow a `long`. -/
structure TimespecExact (ms : UInt32) (t : Timespec) : Prop where
  no_overflow : ((ms.toNat % 1000 : Nat) : Int) * 1000000 ≤ Int64.maxValue.toInt
  sec_range : 0 ≤ t.tv_sec.toInt
  nsec_range : 0 ≤ t.tv_nsec.toInt ∧ t.tv_nsec.toInt < 1000000000
  exact_ms : t.tv_sec.toInt * 1000000000 + t.tv_nsec.toInt = (ms.toNat : Int) * 1000000

/-- The pair `(0, usec)` of `ensure_context` is `ms` milliseconds, libmodbus takes it, and the
    product does not overflow an `int`. -/
structure ResponseTimeoutExact (ms : UInt32) : Prop where
  no_overflow : Int32.minValue.toInt ≤ ms.toInt32.toInt * 1000 ∧
    ms.toInt32.toInt * 1000 ≤ Int32.maxValue.toInt
  accepted : responseTimeoutOk 0 (responseTimeoutUsec ms) = true
  exact_ms : (responseTimeoutUsec ms).toNat = ms.toNat * 1000

section
variable {V : Type}

/-- Whenever `ensure_context` succeeds, after any polls and shutdowns under that timeout, the
    context it leaves has it in force. -/
def TimeoutInForce (tenth : UInt16 → V) (ms : UInt32) : Prop :=
  ∀ acts : List (ModbusAct V),
    (∀ cfg o out, .poll cfg o out ∈ acts → cfg.modbus_timeout_ms = ms) →
    ∀ (cfg : GatewayConfig V) (o : ModbusOutcome), cfg.modbus_timeout_ms = ms →
      (ensureContext cfg o (acts.foldl (modbusAct tenth) modbusStart)).1 = 0 →
      ∃ T ctx m,
        run libmodbusStep []
          (ensureContext cfg o (acts.foldl (modbusAct tenth) modbusStart)).2.calls = some T ∧
        (ensureContext cfg o (acts.foldl (modbusAct tenth) modbusStart)).2.g_ctx = some ctx ∧
        T[ctx]? = some (some m) ∧
        m.response_timeout.1.toNat * 1000000 + m.response_timeout.2.toNat = ms.toNat * 1000

/-- A duration of `ms` at each of the three places. -/
structure DurationsExact (tenth : UInt16 → V) (ms : UInt32) : Prop where
  timer : ∀ settime, ∃ its, (reactorAddTimerMs settime ms).2 = some its ∧
    TimespecExact ms its.it_value ∧ its.it_interval = its.it_value
  sleep : ∀ rems, ∃ req rest, edgeflowSleepMs ms rems = req :: rest ∧ TimespecExact ms req
  response : ResponseTimeoutExact ms
  in_force : TimeoutInForce tenth ms

end

/-! ## The timer and the sleep -/

/-- A `uint32_t` as a `long`. -/
theorem toInt_toInt64 (n : UInt32) : n.toUInt64.toInt64.toInt = n.toNat := by
  have hlt := n.toNat_lt
  rw [← Int64.toInt_toBitVec, UInt64.toBitVec_toInt64, BitVec.toInt_eq_toNat_of_lt]
  · simp
  · simp
    omega

/-- The nanoseconds are below a second, so the product is exact. -/
theorem toInt_nsec (ms : UInt32) :
    ((ms % 1000).toUInt64.toInt64 * 1000000).toInt = ((ms.toNat % 1000 : Nat) : Int) * 1000000 := by
  have hrem : (ms % 1000).toUInt64.toInt64.toInt = ((ms.toNat % 1000 : Nat) : Int) := by
    rw [toInt_toInt64]
    simp
  have hmillion : (1000000 : Int64).toInt = 1000000 := by decide
  rw [Int64.toInt_mul, hrem, hmillion, Int.bmod_def]
  split <;> omega

/-- **The split into seconds and nanoseconds is right for every interval.** -/
theorem timespecExact_split (ms : UInt32) :
    TimespecExact ms
      { tv_sec := (ms / 1000).toUInt64.toInt64
        tv_nsec := (ms % 1000).toUInt64.toInt64 * 1000000 } := by
  have hsec : (ms / 1000).toUInt64.toInt64.toInt = ((ms.toNat / 1000 : Nat) : Int) := by
    rw [toInt_toInt64]
    simp
  have hnsec := toInt_nsec ms
  have hmax : Int64.maxValue.toInt = 9223372036854775807 := by decide
  refine ⟨?_, ?_, ?_, ?_⟩
  · rw [hmax]
    omega
  · rw [hsec]
    omega
  · rw [hnsec]
    omega
  · rw [hsec, hnsec]
    omega

theorem timer_exact {ms : UInt32} (hpos : 0 < ms) (settime : Itimerspec → Bool) :
    ∃ its, (reactorAddTimerMs settime ms).2 = some its ∧ TimespecExact ms its.it_value ∧
      its.it_interval = its.it_value := by
  have hne : ms ≠ 0 := by
    rintro rfl
    exact absurd hpos (by decide)
  unfold reactorAddTimerMs
  rw [if_neg hne]
  exact ⟨_, rfl, timespecExact_split ms, rfl⟩

theorem sleep_exact (ms : UInt32) (rems : List Timespec) :
    ∃ req rest, edgeflowSleepMs ms rems = req :: rest ∧ TimespecExact ms req := by
  unfold edgeflowSleepMs
  cases rems with
  | nil => exact ⟨_, [], rfl, timespecExact_split ms⟩
  | cons rem rems => exact ⟨_, _, rfl, timespecExact_split ms⟩

/-! ## The response timeout -/

theorem responseTimeoutUsec_eq (ms : UInt32) : responseTimeoutUsec ms = ms * 1000 := rfl

theorem responseTimeoutExact_of_le {ms : UInt32} (hpos : 0 < ms) (hle : ms ≤ 999) :
    ResponseTimeoutExact ms := by
  have hp := UInt32.lt_iff_toNat_lt.mp hpos
  have hl := UInt32.le_iff_toNat_le.mp hle
  simp only [UInt32.toNat_ofNat] at hp hl
  have hint : ms.toInt32.toInt = ms.toNat := by
    rw [← Int32.toInt_toBitVec, UInt32.toBitVec_toInt32, BitVec.toInt_eq_toNat_of_lt]
    · rfl
    · simp
      omega
  have husec : (responseTimeoutUsec ms).toNat = ms.toNat * 1000 := by
    rw [responseTimeoutUsec_eq, UInt32.toNat_mul]
    simp
    omega
  refine ⟨?_, ?_, husec⟩
  · have hmin : Int32.minValue.toInt = -2147483648 := by decide
    have hmax : Int32.maxValue.toInt = 2147483647 := by decide
    rw [hint, hmin, hmax]
    omega
  · have hne : responseTimeoutUsec ms ≠ 0 := by
      intro hz
      rw [hz] at husec
      simp at husec
      omega
    have hle' : ¬999999 < responseTimeoutUsec ms := by
      rw [UInt32.lt_iff_toNat_lt, husec]
      simp
      omega
    simp [responseTimeoutOk, hne, hle']

/-- libmodbus takes no pair of more than `999999` microseconds. -/
theorem le_of_responseTimeoutExact {ms : UInt32} (h : ResponseTimeoutExact ms) : ms ≤ 999 := by
  have hok := h.accepted
  simp only [responseTimeoutOk, Bool.not_eq_true', Bool.or_eq_false_iff, decide_eq_false_iff_not,
    UInt32.lt_iff_toNat_lt, h.exact_ms] at hok
  have hmillion : (999999 : UInt32).toNat = 999999 := by decide
  rw [hmillion] at hok
  rw [UInt32.le_iff_toNat_le]
  have : (999 : UInt32).toNat = 999 := by decide
  omega

/-! ## The timeout in force -/

section
variable {V : Type}

/-- The calls say which context is held. -/
theorem HoldsContext.unique {s : ModbusState} {c c' : Nat} {m m' : ModbusT}
    (h : HoldsContext s c m) (h' : HoldsContext s c' m') : m = m' := by
  have hq := Option.some.inj (h.table.run.symm.trans h'.table.run)
  have hc : c = c' := Option.some.inj (h.ctx.symm.trans h'.ctx)
  subst hc
  have hm := congrArg (fun T : ModbusTable => T[c]?) hq
  simpa using hm

/-- The response timeout of a context once `ensure_context` has set it up. -/
def setupTimeout (ms : UInt32) : UInt32 × UInt32 :=
  if responseTimeoutOk 0 (responseTimeoutUsec ms) then (0, responseTimeoutUsec ms) else (0, 500000)

theorem freshContext_timeout (cfg : GatewayConfig V) :
    (freshContext cfg).response_timeout = setupTimeout cfg.modbus_timeout_ms := by
  unfold freshContext modbusSetResponseTimeout setupTimeout
  split <;> rfl

/-- A context that is held was set up with this timeout. -/
def TimedInv (ms : UInt32) (s : ModbusState) : Prop :=
  ContextInv s ∧ ∀ c m, HoldsContext s c m → m.response_timeout = setupTimeout ms

theorem NoContext.timedInv {s : ModbusState} {ms : UInt32} (h : NoContext s) : TimedInv ms s := by
  refine ⟨.inl h, fun c m hm => ?_⟩
  have := hm.ctx
  rw [h.ctx] at this
  cases this

theorem HoldsContext.timedInv {s : ModbusState} {ms : UInt32} {c : Nat} {m : ModbusT}
    (h : HoldsContext s c m) (ht : m.response_timeout = setupTimeout ms) : TimedInv ms s := by
  refine ⟨.inr ⟨c, m, h⟩, fun c' m' hm' => ?_⟩
  rw [hm'.unique h]
  exact ht

theorem ensureContext_timed {cfg : GatewayConfig V} {o : ModbusOutcome} {s : ModbusState}
    (h : TimedInv cfg.modbus_timeout_ms s) :
    TimedInv cfg.modbus_timeout_ms (ensureContext cfg o s).2 := by
  rcases ensureContext_spec cfg o h.1 with (⟨he, _⟩ | ⟨_, hm⟩) | ⟨_, hno⟩
  · rw [he]
    exact h
  · exact hm.timedInv (freshContext_timeout cfg)
  · exact hno.timedInv

theorem modbusAct_timed {tenth : UInt16 → V} {ms : UInt32} {s : ModbusState} {act : ModbusAct V}
    (hact : ∀ cfg o out, act = .poll cfg o out → cfg.modbus_timeout_ms = ms) (h : TimedInv ms s) :
    TimedInv ms (modbusAct tenth s act) := by
  cases act with
  | shutdown => exact (shutdown_noContext h.1).timedInv
  | poll cfg o out =>
    obtain rfl := hact cfg o out rfl
    rw [modbusAct]
    rcases poll_cases tenth cfg o out h.1 with
      ⟨_, he⟩ | ⟨hno, he⟩ | ⟨c, m, hm, _, he | ⟨_, he⟩⟩
    · rw [he]
      exact h
    · rw [he]
      exact hno.timedInv
    · rw [he]
      exact (shutdown_noContext (.inr ⟨c, m, hm.read false⟩)).timedInv
    · rw [he]
      exact (hm.read true).timedInv ((ensureContext_timed h).2 c m hm)

theorem modbusActs_timed (tenth : UInt16 → V) {ms : UInt32} {acts : List (ModbusAct V)}
    (hacts : ∀ cfg o out, .poll cfg o out ∈ acts → cfg.modbus_timeout_ms = ms) :
    TimedInv ms (acts.foldl (modbusAct tenth) modbusStart) := by
  have hrun := run_some (modbusAct tenth) acts modbusStart
  have hstart : NoContext modbusStart := ⟨rfl, atMostOne_dead 0, rfl⟩
  have hok : Along (fun s act => some (modbusAct tenth s act))
      (fun _ act => ∀ cfg o out, act = .poll cfg o out → cfg.modbus_timeout_ms = ms)
      modbusStart acts :=
    along_of_forall fun act hmem _ cfg o out hq => hacts cfg o out (hq ▸ hmem)
  refine run_inv_along (I := TimedInv ms) ?_ hstart.timedInv hok hrun
  intro s act s' hs hact hstep
  obtain rfl := Option.some.inj hstep
  exact modbusAct_timed hact hs

theorem timeoutInForce_of_exact {tenth : UInt16 → V} {ms : UInt32} (h : ResponseTimeoutExact ms) :
    TimeoutInForce tenth ms := by
  intro acts hacts cfg o hcfg hrc
  subst hcfg
  have hinv := modbusActs_timed tenth hacts
  obtain ⟨c, m, hm, _⟩ := ensureContext_success hinv.1 hrc
  have ht := (ensureContext_timed hinv).2 c m hm
  refine ⟨_, c, m, hm.table.run, hm.ctx, heldTable_getElem c m, ?_⟩
  rw [ht, setupTimeout, if_pos h.accepted]
  simpa using h.exact_ms

/-- **A configured duration is the duration in force at all three places exactly up to 999 ms.** -/
theorem durations_exact_iff (tenth : UInt16 → V) (ms : UInt32) (hpos : 0 < ms) :
    DurationsExact tenth ms ↔ ms ≤ 999 := by
  constructor
  · intro h
    exact le_of_responseTimeoutExact h.response
  · intro hle
    have hresp := responseTimeoutExact_of_le hpos hle
    exact ⟨timer_exact hpos, sleep_exact ms, hresp, timeoutInForce_of_exact hresp⟩

end

theorem durations_exact_iff_shipped :
    (0 : UInt32) < 500 ∧ DurationsExact (fun r : UInt16 => (r.toNat : ℚ) / 10) 500 :=
  ⟨by decide, (durations_exact_iff _ 500 (by decide)).mpr (by decide)⟩

/-- A configured second: libmodbus refuses the pair, and keeps its half second. -/
theorem second_keeps_half_second :
    ¬DurationsExact (fun r : UInt16 => (r.toNat : ℚ) / 10) 1000 ∧
      ∃ m : ModbusT, m.response_timeout = (0, 500000) ∧
        run libmodbusStep []
          (ensureContext { gatewayConfigDefaults ℚ with modbus_timeout_ms := 1000 }
            { made := true, connects := true, regs := none, now := 0 } modbusStart).2.calls =
          some [some m] := by
  refine ⟨fun h => absurd h.response.accepted (by decide), ?_⟩
  exact ⟨{ modbusInitCommon (CStr.copy 8 (ascii "rtu")) with connected := true }, rfl, by decide⟩

end Proof
end EdgeFlow
