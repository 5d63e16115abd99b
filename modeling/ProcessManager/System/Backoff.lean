import ProcessManager.System.Run

/-! The next restart time. Phase 3 computes `initial_delay * (multiplier / 10)^n`, turns
it into a `Duration` and caps it afterwards, so the cap does not protect the conversion;
and it casts the counter to `i32` for the exponent. The computation succeeds with the
documented delay exactly when the uncapped product stays below `2 ^ 64` seconds, the
capped delay fits behind `now`, and the cast does not change the delay. -/

namespace ProcessManager

namespace BackoffConfig

/-- `multiplier / 10` -/
def factor (b : BackoffConfig) : ℚ := b.multiplier.toNat / 10

/-- The delay before capping, in seconds. -/
def uncapped (b : BackoffConfig) (e : ℤ) : ℚ := b.initialDelay.asSecs * b.factor ^ e

/-- `min(initial_delay * (multiplier / 10)^e, max_delay)` in whole nanoseconds. -/
def cappedNanos (b : BackoffConfig) (e : ℤ) : ℕ :=
  min (Duration.nearestNanos (b.uncapped e)) b.maxDelay.nanos

/-- The power is finite and the uncapped delay is a `Duration`. -/
def InRange (b : BackoffConfig) (e : ℤ) : Prop := ¬ (b.factor = 0 ∧ e < 0) ∧ b.uncapped e < 2 ^ 64

instance (b : BackoffConfig) (e : ℤ) : Decidable (b.InRange e) :=
  inferInstanceAs (Decidable (¬ (b.factor = 0 ∧ e < 0) ∧ b.uncapped e < 2 ^ 64))

theorem uncapped_nonneg (b : BackoffConfig) (e : ℤ) : 0 ≤ b.uncapped e := by
  have hfactor : 0 ≤ b.factor := by unfold factor; positivity
  have hdelay : 0 ≤ b.initialDelay.asSecs := by unfold Duration.asSecs; positivity
  exact mul_nonneg hdelay (zpow_nonneg hfactor e)

end BackoffConfig

theorem Duration.nanos_min (d e : Duration) : (d.min e).nanos = min d.nanos e.nanos := by
  unfold Duration.min
  split_ifs with h
  · rw [min_eq_left h]
  · rw [min_eq_right (by omega)]

namespace RestartState

variable (rs : RestartState) (b : BackoffConfig)

/-- The exponent that `current_delay` uses. -/
def exponent : ℤ := rs.restartCount.toInt32.toInt

/-- `current_delay` panics outside the range and is capped inside. -/
theorem currentDelay_eq_some_iff (k : ℕ) :
    (∃ d, rs.currentDelay b = some d ∧ d.nanos = k) ↔
      b.InRange rs.exponent ∧ b.cappedNanos rs.exponent = k := by
  have hpower : powi b.factor rs.exponent =
      if b.factor = 0 ∧ rs.exponent < 0 then none else some (b.factor ^ rs.exponent) := rfl
  have hdelay : rs.currentDelay b = (powi b.factor rs.exponent).bind fun power =>
      (Duration.fromSecs (b.initialDelay.asSecs * power)).bind fun delay =>
        some (delay.min b.maxDelay) := rfl
  rw [hdelay, hpower]
  by_cases hinf : b.factor = 0 ∧ rs.exponent < 0
  · simp [hinf, BackoffConfig.InRange]
  · have hnonneg : 0 ≤ b.initialDelay.asSecs * b.factor ^ rs.exponent := b.uncapped_nonneg _
    simp only [hinf, ↓reduceIte, Option.bind_some, Duration.fromSecs, hnonneg, true_and]
    by_cases hlt : b.initialDelay.asSecs * b.factor ^ rs.exponent < 2 ^ 64
    · have hrange : b.InRange rs.exponent := ⟨hinf, hlt⟩
      have hmax := b.maxDelay.lt
      simp only [hlt, ↓reduceIte, Option.bind_some, Option.some.injEq, exists_eq_left',
        Duration.nanos_min, hrange, true_and, BackoffConfig.cappedNanos, BackoffConfig.uncapped]
      constructor <;> intro h <;> omega
    · simp [hlt, BackoffConfig.InRange, BackoffConfig.uncapped]

/-- Below `2 ^ 31` restarts the cast to `i32` is harmless. -/
theorem exponent_of_lt (h : rs.restartCount.toNat < 2 ^ 31) :
    rs.exponent = rs.restartCount.toNat := by
  show rs.restartCount.toBitVec.toInt = rs.restartCount.toBitVec.toNat
  exact BitVec.toInt_eq_toNat_of_lt (by
    have hnat : rs.restartCount.toBitVec.toNat = rs.restartCount.toNat := rfl
    omega)

end RestartState

namespace World

/-- The reaper schedules a restart without a panic, and the delay it computes is the
documented one for the new counter. -/
def Schedules (env : Env) (now : Instant) (config : ProcessConfig) (b : BackoffConfig)
    (rs : RestartState) : Prop :=
  scheduleState env now config rs ≠ none ∧
    ∃ d, rs.recordRestart.currentDelay b = some d ∧
      d.nanos = b.cappedNanos rs.recordRestart.restartCount.toNat

/-- Scheduling succeeds when the delay is computed and fits behind `now`. -/
theorem scheduleState_ne_none_iff {env : Env} {now : Instant} {config : ProcessConfig}
    {b : BackoffConfig} {rs : RestartState} (hb : getBackoffConfig config = some b) :
    scheduleState env now config rs ≠ none ↔
      ∃ d, rs.recordRestart.currentDelay b = some d ∧ now + d.nanos ≤ env.instantMax := by
  simp only [scheduleState, hb]
  cases rs.recordRestart.currentDelay b with
  | none => simp
  | some d => simp

/-- Exactly when the next restart time is computed as documented. -/
theorem schedules_iff (env : Env) (now : Instant) (config : ProcessConfig) (b : BackoffConfig)
    (rs : RestartState) :
    Schedules env now { config with restartPolicy := .backoff b } b rs ↔
      b.InRange rs.recordRestart.exponent ∧
        b.cappedNanos rs.recordRestart.exponent =
          b.cappedNanos rs.recordRestart.restartCount.toNat ∧
        now + b.cappedNanos rs.recordRestart.restartCount.toNat ≤ env.instantMax := by
  have hdelay := rs.recordRestart.currentDelay_eq_some_iff b
    (b.cappedNanos rs.recordRestart.restartCount.toNat)
  unfold Schedules
  rw [scheduleState_ne_none_iff (b := b) rfl, hdelay]
  constructor
  · rintro ⟨⟨d, hd, hfits⟩, hrange, hcap⟩
    obtain ⟨d', hd', hnanos⟩ := hdelay.mpr ⟨hrange, hcap⟩
    obtain rfl : d = d' := Option.some.inj (hd.symm.trans hd')
    exact ⟨hrange, hcap, hnanos ▸ hfits⟩
  · rintro ⟨hrange, hcap, hfits⟩
    obtain ⟨d, hd, hnanos⟩ := hdelay.mpr ⟨hrange, hcap⟩
    exact ⟨⟨d, hd, hnanos ▸ hfits⟩, hrange, hcap⟩

end World

/-! ### A delay that is capped too late -/

/-- An initial delay of `2 ^ 63` seconds, doubled and capped at one minute. -/
def BackoffConfig.hugeDelay : BackoffConfig where
  initialDelay := ⟨2 ^ 63 * 10 ^ 9, by norm_num⟩
  multiplier := 20
  maxDelay := ⟨60 * 10 ^ 9, Duration.minute_lt⟩
  maxRestarts := 1
  minUptime := ⟨10 * 10 ^ 9, Duration.tenSeconds_lt⟩

/-- The first child exits with code `1` before the first pass. -/
def Env.firstCrash : Env :=
  { Env.calm with exits := fun n => if n = 2 then [⟨0, .code 1, 0⟩] else [] }

/-- The first crash of a process with this configuration ends the reaper thread. -/
theorem hugeDelay_panics :
    ¬ World.Schedules .firstCrash 0
        { command := "/bin/web", restartPolicy := .backoff .hugeDelay } .hugeDelay .new ∧
      (System.withReaper.run .firstCrash 0
        [.start ⟨"web"⟩
          { command := "/bin/web"
            restartOnExit := true
            restartPolicy := .backoff .hugeDelay },
          .pass]).world.reaper = .panicked :=
  ⟨fun h => h.1 (by decide +kernel), by decide +kernel⟩

end ProcessManager
