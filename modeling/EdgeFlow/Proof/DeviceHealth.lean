import Mathlib.Data.List.Induction
import EdgeFlow.Model.DeviceModel

/-!
# Device health

The header's rule is about a streak: one or two failures in a row degrade a device, three take it
offline. The code keeps the streak in a `uint32_t` that it increments without a ceiling, so what a
device shows is the rule applied to the streak modulo `2 ^ 32` — with one repair: at a multiple of
`2 ^ 32` no branch assigns the state, and the device stays as it was, offline.

The two disagree on the streaks that are one or two past a multiple, and nowhere else.
-/

set_option autoImplicit false

namespace EdgeFlow

open Lib

inductive DeviceCall where
  | success (ts_ms : UInt64)
  | failure (ts_ms : UInt64) (error : Option Bytes)
  deriving DecidableEq

def DeviceCall.isFailure : DeviceCall → Bool
  | .success _ => false
  | .failure _ _ => true

def deviceCall (device : Device) : DeviceCall → Device
  | .success ts_ms => deviceMarkOnline device ts_ms
  | .failure ts_ms error => deviceMarkFailure device ts_ms error

/-- The failures since the last success, or since the start. -/
def failureStreak (calls : List DeviceCall) : Nat :=
  (calls.reverse.takeWhile DeviceCall.isFailure).length

/-- The rule of the header, for the calls a device has seen. -/
structure HealthReflectsStreak (calls : List DeviceCall) (device : Device) : Prop where
  unknown : device.online_state = .unknown ↔ calls = []
  online : device.online_state = .online ↔ ∃ ts_ms, calls.getLast? = some (.success ts_ms)
  degraded : device.online_state = .degraded ↔
    failureStreak calls = 1 ∨ failureStreak calls = 2
  offline : device.online_state = .offline ↔ 3 ≤ failureStreak calls

namespace Proof

/-! ## Streaks -/

theorem failureStreak_success (calls : List DeviceCall) (ts_ms : UInt64) :
    failureStreak (calls ++ [.success ts_ms]) = 0 := by
  unfold failureStreak
  rw [List.reverse_append]
  rfl

theorem failureStreak_failure (calls : List DeviceCall) (ts_ms : UInt64) (error : Option Bytes) :
    failureStreak (calls ++ [.failure ts_ms error]) = failureStreak calls + 1 := by
  unfold failureStreak
  rw [List.reverse_append]
  rfl

theorem failureStreak_replicate (n : Nat) (ts_ms : UInt64) (error : Option Bytes) :
    failureStreak (List.replicate n (.failure ts_ms error)) = n := by
  induction n with
  | zero => rfl
  | succ n ih => rw [List.replicate_succ', failureStreak_failure, ih]

/-! ## What a device shows -/

/-- What a streak of at least one failure shows as. -/
def shownAs (streak : Nat) : DeviceOnlineState :=
  if streak % 2 ^ 32 = 1 ∨ streak % 2 ^ 32 = 2 then .degraded else .offline

/-- The state after the calls, as a function of them. -/
structure Shows (calls : List DeviceCall) (device : Device) : Prop where
  failures : device.consecutive_failures.toNat = failureStreak calls % 2 ^ 32
  start : calls = [] → device.online_state = .unknown
  success : ∀ ts_ms, calls.getLast? = some (.success ts_ms) → device.online_state = .online
  streak : 0 < failureStreak calls → device.online_state = shownAs (failureStreak calls)

theorem shows_init (id name : Bytes) (protocol : DeviceProtocol) :
    Shows [] (deviceInit id name protocol) where
  failures := rfl
  start _ := rfl
  success ts_ms h := by cases h
  streak h := by cases h

theorem Shows.markOnline (calls : List DeviceCall) (device : Device) (ts_ms : UInt64) :
    Shows (calls ++ [.success ts_ms]) (deviceMarkOnline device ts_ms) where
  failures := by
    rw [failureStreak_success]
    rfl
  start h := by simp at h
  success _ _ := rfl
  streak h := by
    rw [failureStreak_success] at h
    cases h

/-- The three ways the incremented counter can come out, against the true streak. -/
theorem shownAs_succ {device : Device} {streak : Nat}
    (hfail : device.consecutive_failures.toNat = streak % 2 ^ 32)
    (hshow : 0 < streak → device.online_state = shownAs streak) (ts_ms : UInt64)
    (error : Option Bytes) :
    (deviceMarkFailure device ts_ms error).online_state = shownAs (streak + 1) := by
  have hcount : (device.consecutive_failures + 1).toNat = (streak + 1) % 2 ^ 32 := by
    rw [UInt32.toNat_add, hfail]
    exact Nat.mod_add_mod _ _ _
  simp only [deviceMarkFailure, UInt32.le_iff_toNat_le, UInt32.lt_iff_toNat_lt, hcount]
  have h3 : (3 : UInt32).toNat = 3 := rfl
  have h0 : (0 : UInt32).toNat = 0 := rfl
  rw [h3, h0]
  unfold shownAs
  split_ifs with hthree hshown hpos hshown hshown
  · omega
  · rfl
  · rfl
  · omega
  · omega
  · -- the counter is back at zero: the streak so far was already offline
    rw [hshow (by omega), shownAs, if_neg (by omega)]

theorem Shows.markFailure {calls : List DeviceCall} {device : Device} (h : Shows calls device)
    (ts_ms : UInt64) (error : Option Bytes) :
    Shows (calls ++ [.failure ts_ms error]) (deviceMarkFailure device ts_ms error) where
  failures := by
    rw [failureStreak_failure]
    show (device.consecutive_failures + 1).toNat = _
    rw [UInt32.toNat_add, h.failures]
    exact Nat.mod_add_mod _ _ _
  start hnil := by simp at hnil
  success t hlast := by simp at hlast
  streak _ := by
    rw [failureStreak_failure]
    exact shownAs_succ h.failures h.streak ts_ms error

/-- **The state after every run of calls.** -/
theorem shows_run (id name : Bytes) (protocol : DeviceProtocol) (calls : List DeviceCall) :
    Shows calls (calls.foldl deviceCall (deviceInit id name protocol)) := by
  induction calls using List.reverseRecOn with
  | nil => exact shows_init id name protocol
  | append_singleton calls call ih =>
    rw [List.foldl_append, List.foldl_cons, List.foldl_nil]
    cases call with
    | success ts_ms => exact Shows.markOnline calls _ ts_ms
    | failure ts_ms error => exact ih.markFailure ts_ms error

/-! ## The rule -/

/-- The calls end in a success, in a failure, or have not begun. -/
theorem calls_cases (calls : List DeviceCall) :
    (calls = [] ∧ failureStreak calls = 0) ∨
    ((∃ ts_ms, calls.getLast? = some (.success ts_ms)) ∧ calls ≠ [] ∧ failureStreak calls = 0) ∨
    ((¬∃ ts_ms, calls.getLast? = some (.success ts_ms)) ∧ calls ≠ [] ∧
      0 < failureStreak calls) := by
  induction calls using List.reverseRecOn with
  | nil => exact .inl ⟨rfl, rfl⟩
  | append_singleton calls call _ =>
    cases call with
    | success ts_ms =>
      refine .inr (.inl ⟨⟨ts_ms, by simp⟩, by simp, failureStreak_success calls ts_ms⟩)
    | failure ts_ms error =>
      refine .inr (.inr ⟨by simp, by simp, ?_⟩)
      rw [failureStreak_failure]
      exact Nat.succ_pos _

/-- The rule against the state as a function of the calls. -/
theorem healthReflectsStreak_of_shows {calls : List DeviceCall} {device : Device}
    (h : Shows calls device) :
    HealthReflectsStreak calls device ↔
      failureStreak calls ≤ 2 ∨
        (failureStreak calls % 2 ^ 32 ≠ 1 ∧ failureStreak calls % 2 ^ 32 ≠ 2) := by
  rcases calls_cases calls with ⟨rfl, hstreak⟩ | ⟨⟨ts_ms, hlast⟩, hne, hstreak⟩ | ⟨hlast, hne, hpos⟩
  · have hstate := h.start rfl
    refine iff_of_true ⟨?_, ?_, ?_, ?_⟩ (.inl (by omega)) <;> rw [hstate] <;> simp [hstreak]
  · have hstate := h.success ts_ms hlast
    refine iff_of_true ⟨?_, ?_, ?_, ?_⟩ (.inl (by omega)) <;> rw [hstate] <;>
      simp [hstreak, hne, hlast]
  · have hstate := h.streak hpos
    unfold shownAs at hstate
    constructor
    · intro hrule
      by_contra hno
      have hdegraded : device.online_state = .degraded := by
        rw [hstate, if_pos (by omega)]
      have := hrule.degraded.mp hdegraded
      omega
    · intro hcond
      by_cases hsmall : failureStreak calls ≤ 2
      · rw [if_pos (by omega)] at hstate
        refine ⟨?_, ?_, ?_, ?_⟩ <;> rw [hstate] <;> simp [hne, hlast] <;> omega
      · rw [if_neg (by omega)] at hstate
        refine ⟨?_, ?_, ?_, ?_⟩ <;> rw [hstate] <;> simp [hne, hlast] <;> omega

/-- **When device health reflects the failure streak.** After any calls on any new device: exactly
    if the streak is at most two failures long, or is not one or two past a multiple of
    `2 ^ 32`. -/
theorem health_reflects_streak_iff (id name : Bytes) (protocol : DeviceProtocol)
    (calls : List DeviceCall) :
    HealthReflectsStreak calls (calls.foldl deviceCall (deviceInit id name protocol)) ↔
      failureStreak calls ≤ 2 ∨
        (failureStreak calls % 2 ^ 32 ≠ 1 ∧ failureStreak calls % 2 ^ 32 ≠ 2) :=
  healthReflectsStreak_of_shows (shows_run id name protocol calls)

/-- A device that has failed `2 ^ 32 + 1` times in a row is called degraded. -/
theorem long_streak_shows_degraded :
    ∃ calls : List DeviceCall,
      failureStreak calls = 2 ^ 32 + 1 ∧
      (calls.foldl deviceCall (deviceInit (ascii "bms_001") (ascii "BMS") .simulator)).online_state
        = .degraded ∧
      ¬HealthReflectsStreak calls
        (calls.foldl deviceCall (deviceInit (ascii "bms_001") (ascii "BMS") .simulator)) := by
  refine ⟨List.replicate (2 ^ 32 + 1) (.failure 0 none), failureStreak_replicate _ _ _, ?_⟩
  have hshows := shows_run (ascii "bms_001") (ascii "BMS") .simulator
    (List.replicate (2 ^ 32 + 1) (.failure 0 none))
  have hstreak := failureStreak_replicate (2 ^ 32 + 1) 0 none
  constructor
  · rw [hshows.streak (by omega), hstreak, shownAs, if_pos (.inl (by decide))]
  · rw [healthReflectsStreak_of_shows hshows, hstreak]
    omega

end Proof
end EdgeFlow
