import ProcessManager.Reaper.Waiting

/-! One pass of `reaper_loop`. The thread returns when the event channel is closed and
ends when Phase 3 panics; later phases of the pass are then skipped. -/

namespace ProcessManager

namespace World

variable (env : Env)

/-- Exit detection up to the events: `now`, the exits found, and the world after Phase 2. -/
def passDetect (pollInterval : ℕ) (w : World) : Instant × Exits × World :=
  let w := (w.sleep env pollInterval).tick env
  let now := w.clock
  let x := w.phase1 env now
  (now, x.1, (x.2.phase1b env x.1.cascadeOrigins).phase2 env x.1)

/-- Phases 1 to 4. -/
def beforePhase5 (pollInterval : ℕ) (w : World) : World :=
  let r := w.passDetect env pollInterval
  (r.2.2.ifRunning fun w => phase3 env r.1 r.2.1.exited w).ifRunning (phase4 env r.1)

/-- One iteration of the loop in `reaper_loop`. -/
def reaperPass (pollInterval : ℕ) (w : World) : World :=
  ((w.beforePhase5 env pollInterval).ifRunning (phase5 env)).ifRunning (phase6 env)

/-- The rule for a pass: `I₀` holds after exit detection, Phase 3 turns it into `I`, and
every later phase keeps `I`. Where the reaper thread has ended, `I₀` has to give `I`. -/
theorem reaperPass_invariant {env : Env} {pollInterval : ℕ} {w : World} {I₀ I : World → Prop}
    (hdetect : I₀ (w.passDetect env pollInterval).2.2)
    (hended : ∀ w', I₀ w' → w'.reaper ≠ .running → I w')
    (hphase3 : ∀ w', w' = (w.passDetect env pollInterval).2.2 → w'.reaper = .running →
      I (phase3 env (w.passDetect env pollInterval).1 (w.passDetect env pollInterval).2.1.exited w'))
    (hphase4 : ∀ now w', I w' → w'.reaper = .running → I (w'.phase4 env now))
    (hphase5 : ∀ w', I w' → w'.reaper = .running → I (w'.phase5 env))
    (hphase6 : ∀ w', I w' → w'.reaper = .running → I (w'.phase6 env)) :
    I (w.reaperPass env pollInterval) := by
  have h3 : I ((w.passDetect env pollInterval).2.2.ifRunning fun w' =>
      phase3 env (w.passDetect env pollInterval).1 (w.passDetect env pollInterval).2.1.exited w') := by
    unfold ifRunning
    split_ifs with hr
    · exact hphase3 _ rfl hr
    · exact hended _ hdetect hr
  have h4 := ifRunning_invariant (f := phase4 env (w.passDetect env pollInterval).1) h3
    fun hr => hphase4 _ _ h3 hr
  have h5 := ifRunning_invariant (f := phase5 env) h4 fun hr => hphase5 _ h4 hr
  exact ifRunning_invariant (f := phase6 env) h5 fun hr => hphase6 _ h5 hr

end World

end ProcessManager
