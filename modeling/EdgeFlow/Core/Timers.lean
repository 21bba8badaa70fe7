import Mathlib.Data.List.Basic

/-!
# Timers and sleeps (`src/core/reactor.*`, `src/common/time_util.*`)

The two places that hand a configured number of milliseconds to the kernel as a `timespec`.
`time_t` and `long` are 64 bits wide; the quotient and the remainder are taken as `uint32_t`.
-/

set_option autoImplicit false

namespace EdgeFlow

structure Timespec where
  tv_sec : Int64
  tv_nsec : Int64
  deriving DecidableEq

structure Itimerspec where
  it_value : Timespec
  it_interval : Timespec
  deriving DecidableEq

/-- `reactor_add_timer_ms`: the return value, and what `timerfd_settime` was given. A zero
    interval is refused before that; `settime` is whether the kernel takes the timer. -/
def reactorAddTimerMs (settime : Itimerspec → Bool) (interval_ms : UInt32) :
    Int × Option Itimerspec :=
  if interval_ms = 0 then (-1, none)
  else
    let it_value : Timespec :=
      { tv_sec := (interval_ms / 1000).toUInt64.toInt64
        tv_nsec := (interval_ms % 1000).toUInt64.toInt64 * 1000000 }
    let its : Itimerspec := { it_value := it_value, it_interval := it_value }
    (if settime its then 0 else -1, some its)

/-- The loop of `edgeflow_sleep_ms`: the requests `nanosleep` is given, where `rems` are the
    remainders that the interrupted ones report. -/
def sleepLoop (req : Timespec) : List Timespec → List Timespec
  | [] => [req]
  | rem :: rems => req :: sleepLoop rem rems

/-- `edgeflow_sleep_ms`. -/
def edgeflowSleepMs (ms : UInt32) (rems : List Timespec) : List Timespec :=
  sleepLoop
    { tv_sec := (ms / 1000).toUInt64.toInt64
      tv_nsec := (ms % 1000).toUInt64.toInt64 * 1000000 } rems

end EdgeFlow
