import ProcessManager.Config
import Mathlib.Data.Rat.Floor
import Mathlib.Algebra.Order.Floor.Ring

/-! `RestartState`: the consecutive restart counter and the backoff timer of one
process. The source computes the delay in `f64`; exact rationals stand in for it,
and a panicking conversion is `none`. -/

namespace ProcessManager

namespace Duration

def asSecs (d : Duration) : ℚ := d.nanos / 10 ^ 9

/-- The whole number of nanoseconds nearest to `q` seconds; a tie goes to the even one. -/
def nearestNanos (q : ℚ) : ℕ :=
  let below := ⌊q * 10 ^ 9⌋
  let rest := q * 10 ^ 9 - below
  if rest < 1 / 2 ∨ (rest = 1 / 2 ∧ below % 2 = 0) then below.toNat else below.toNat + 1

/-- `Duration::from_secs_f64`: `none` is the panic on a negative argument or on one
of at least `2 ^ 64` seconds. -/
def fromSecs (q : ℚ) : Option Duration :=
  if 0 ≤ q ∧ q < 2 ^ 64 then
    some ⟨min (nearestNanos q) (2 ^ 64 * 10 ^ 9 - 1), by omega⟩
  else none

protected def min (d e : Duration) : Duration := if d.nanos ≤ e.nanos then d else e

end Duration

/-- `f64::powi` over the rationals; `none` where the power is infinite. -/
def powi (x : ℚ) (n : ℤ) : Option ℚ := if x = 0 ∧ n < 0 then none else some (x ^ n)

structure RestartState where
  restartCount : UInt32
  lastStartedAt : Option Instant
  nextEligibleRestart : Option Instant
  deriving DecidableEq

namespace RestartState

def new : RestartState := ⟨0, none, none⟩

/-- `initial_delay * (multiplier / 10)^restart_count`, converted to a `Duration` and
only then capped. The exponent is the counter cast to `i32`. -/
def currentDelay (rs : RestartState) (config : BackoffConfig) : Option Duration := do
  let power ← powi (config.multiplier.toNat / 10) rs.restartCount.toInt32.toInt
  let delay ← Duration.fromSecs (config.initialDelay.asSecs * power)
  return delay.min config.maxDelay

def isRateLimited (rs : RestartState) (config : BackoffConfig) : Bool :=
  config.maxRestarts ≤ rs.restartCount

/-- Reset the counter after `min_uptime` of uptime. -/
def checkStableUptime (rs : RestartState) (config : BackoffConfig) (now : Instant) : RestartState :=
  match rs.lastStartedAt with
  | some startedAt =>
    if config.minUptime.nanos ≤ now - startedAt ∧ 0 < rs.restartCount then
      { rs with restartCount := 0 }
    else rs
  | none => rs

def isEligibleForRestart (rs : RestartState) (now : Instant) : Bool :=
  match rs.nextEligibleRestart with
  | some eligible => eligible ≤ now
  | none => true

def recordRestart (rs : RestartState) : RestartState :=
  { rs with restartCount := rs.restartCount + 1 }

def markStarted (rs : RestartState) (now : Instant) : RestartState :=
  { rs with lastStartedAt := some now }

def scheduleRestart (rs : RestartState) (eligibleAt : Instant) : RestartState :=
  { rs with nextEligibleRestart := some eligibleAt }

def cancelPendingRestart (rs : RestartState) : RestartState :=
  { rs with nextEligibleRestart := none }

def reset (_ : RestartState) : RestartState := ⟨0, none, none⟩

/-- The stable-uptime check never raises the counter. -/
theorem checkStableUptime_restartCount (rs : RestartState) (config : BackoffConfig)
    (now : Instant) : (rs.checkStableUptime config now).restartCount = rs.restartCount ∨
      (rs.checkStableUptime config now).restartCount = 0 := by
  unfold checkStableUptime
  split
  · split_ifs <;> simp
  · simp

end RestartState

end ProcessManager
