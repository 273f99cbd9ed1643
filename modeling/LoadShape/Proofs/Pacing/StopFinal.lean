import LoadShape.Proofs.Pacing.HeldRate

/-!
# What a stop leaves open

A caller that comes later and with more hits than one that was told to stop is told the
same, unless it is behind schedule, or the other one was on a ramp that has gone on since.
-/

namespace LoadShape.Pacing

open LoadShape.Number LoadShape.Time

/-! ## Constant rates -/

namespace ConstantPacer

/-- The next hit is due beyond the last instant of any schedule. -/
def OutOfRange (p : ConstantPacer) (hits : UInt64) : Prop :=
  0 < p.interval ∧ scheduleEnd / p.interval < hits.toNat

theorem capped_mono {cap hits more : UInt64} (le : hits ≤ more)
    (reached : capped cap hits = true) : capped cap more = true := by
  simp only [capped, Bool.and_eq_true, decide_eq_true_eq] at reached ⊢
  exact ⟨reached.1, UInt64.le_trans reached.2 le⟩

/-- The reasons for which a constant rate stops. -/
theorem pace_eq_stop_iff (p : ConstantPacer) (elapsed : Span) (hits : UInt64) :
    p.pace elapsed hits = .stop ↔
      capped p.cap hits = true ∨
        p.rate ≠ 0 ∧ ¬ p.Behind elapsed hits ∧ p.OutOfRange hits := by
  unfold pace Behind OutOfRange
  by_cases reached : capped p.cap hits = true
  · simp [reached]
  · by_cases unlimited : p.rate = 0
    · simp [reached, unlimited, Pace.now]
    · by_cases behind : hits.toNat < p.owed elapsed
      · simp [reached, unlimited, behind, Pace.now]
      · simp [reached, unlimited, behind]

/-- After a stop only a caller that is behind may go on. -/
theorem pace_after_stop {p : ConstantPacer} {elapsed later : Span} {hits more : UInt64}
    (hits_le : hits ≤ more) (stopped : p.pace elapsed hits = .stop) :
    p.pace later more = .stop ∨ p.pace later more = .now ∧ p.Behind later more := by
  by_cases reached : capped p.cap more = true
  · exact Or.inl (pace_of_capped reached later)
  · have stop_cases := (p.pace_eq_stop_iff elapsed hits).mp stopped
    obtain ⟨limited, -, positive, outOfRange⟩ :=
      stop_cases.resolve_left fun below => reached (capped_mono hits_le below)
    by_cases behind : p.Behind later more
    · exact Or.inr ⟨pace_of_behind (by simpa using reached) limited behind, behind⟩
    · have stillOut : p.OutOfRange more :=
        ⟨positive, Nat.lt_of_lt_of_le outOfRange (UInt64.le_iff_toNat_le.mp hits_le)⟩
      exact Or.inl ((p.pace_eq_stop_iff later more).mpr (Or.inr ⟨limited, behind, stillOut⟩))

end ConstantPacer

/-! ## Ramps -/

/-- A falling rate does not rise. -/
theorem Ramp.rateAt_antitone {r : Ramp} (falling : r.rising = false) {elapsed later : Span}
    (le : elapsed ≤ later) : r.rateAt later ≤ r.rateAt elapsed :=
  (notPast_of_falling falling).mp (r.rateAt_notPast le)

/-- The whole nanoseconds between two hits at the given rate. -/
def rampInterval (rate : Rat) : Nat := (wholePart (rounded (nanosPerSecond / rate))).toNat

theorem rampInterval_antitone {slow fast : Rat} (positive : 0 < slow) (le : slow ≤ fast) :
    rampInterval fast ≤ rampInterval slow := by
  refine UInt64.le_iff_toNat_le.mp (wholePart_mono (rounded_mono ?_))
  gcongr

namespace Course

variable {c : Course} {plan : Plan} {elapsed later : Span} {hits more : UInt64}

/-- The hits are fewer than the schedule makes due: by the hits of the ramp, or by those of
the constant phase that has begun. -/
def Behind (c : Course) (plan : Plan) (elapsed : Span) (hits : UInt64) : Prop :=
  hits < wholePart (c.expectedHits plan elapsed) ∨
    ∃ phaseStart, plan.constantAt? = some phaseStart ∧ phaseStart ≤ elapsed ∧
      plan.hold.Behind (elapsed - phaseStart) (saturate (hits.toNat - plan.baseHits.toNat))

/-- The reasons for which a caller on the ramp is told to stop. -/
theorem pace_on_ramp (onRamp : OnRamp plan elapsed)
    (enough : ¬ hits < wholePart (c.expectedHits plan elapsed)) :
    c.pace plan elapsed hits = .stop ↔
      c.rate plan elapsed ≤ 0 ∨
        rampInterval (c.rate plan elapsed) ≠ 0 ∧
          scheduleEnd / rampInterval (c.rate plan elapsed) < hits.toNat := by
  rw [pace_before_phase onRamp enough]
  by_cases zero : c.rate plan elapsed ≤ 0
  · simp [zero]
  · simp only [zero, if_false, false_or, rampPace]
    split
    · next outOfRange => simpa using! outOfRange
    · next inRange => simpa using! inRange

/-- At a rate that is not greater, a stop on the ramp stays one. -/
theorem pace_on_ramp_after_stop (hits_le : hits ≤ more) (onRamp : OnRamp plan elapsed)
    (still : OnRamp plan later) (rate_le : c.rate plan later ≤ c.rate plan elapsed)
    (enough : ¬ hits < wholePart (c.expectedHits plan elapsed))
    (enough_later : ¬ more < wholePart (c.expectedHits plan later))
    (stopped : c.pace plan elapsed hits = .stop) : c.pace plan later more = .stop := by
  rw [pace_on_ramp onRamp enough] at stopped
  rw [pace_on_ramp still enough_later]
  rcases stopped with zero | ⟨nonzero, outOfRange⟩
  · exact Or.inl (le_trans rate_le zero)
  · by_cases zero_later : c.rate plan later ≤ 0
    · exact Or.inl zero_later
    · have intervals := rampInterval_antitone (not_le.mp zero_later) rate_le
      have positive : 0 < rampInterval (c.rate plan elapsed) := Nat.pos_of_ne_zero nonzero
      have bounds : scheduleEnd / rampInterval (c.rate plan later) ≤
          scheduleEnd / rampInterval (c.rate plan elapsed) :=
        Nat.div_le_div_left intervals positive
      have counts := UInt64.le_iff_toNat_le.mp hits_le
      exact Or.inr ⟨by omega, by omega⟩

/-- What a caller may be told that asks after another one was told to stop. -/
theorem pace_after_stop (le : elapsed ≤ later) (hits_le : hits ≤ more)
    (stopped : c.pace plan elapsed hits = .stop) :
    c.pace plan later more = .stop ∨
      c.pace plan later more = .now ∧ c.Behind plan later more ∨
      OnRamp plan elapsed ∧ (¬ OnRamp plan later ∧ plan.hold.rate ≠ 0 ∨
        c.ramp.rising = true ∧ c.rate plan elapsed < c.rate plan later) := by
  by_cases behind : more < wholePart (c.expectedHits plan later)
  · exact Or.inr (Or.inl ⟨pace_of_behind behind, Or.inl behind⟩)
  · have enough : ¬ hits < wholePart (c.expectedHits plan elapsed) := by
      intro early
      rw [pace_of_behind early] at stopped
      cases stopped
    by_cases onRamp : OnRamp plan elapsed
    · by_cases still : OnRamp plan later
      · by_cases faster : c.ramp.rising = true ∧ c.rate plan elapsed < c.rate plan later
        · exact Or.inr (Or.inr ⟨onRamp, Or.inr faster⟩)
        · have rate_le : c.rate plan later ≤ c.rate plan elapsed := by
            cases direction : c.ramp.rising with
            | true => exact not_lt.mp fun less => faster ⟨direction, less⟩
            | false =>
                rw [rate_on_ramp onRamp, rate_on_ramp still]
                exact Ramp.rateAt_antitone direction le
          exact Or.inl
            (pace_on_ramp_after_stop hits_le onRamp still rate_le enough behind stopped)
      · obtain ⟨phaseStart, begins, begun⟩ := exists_phase_of_not_onRamp still
        by_cases none_due : plan.hold.rate = 0
        · rw [pace_in_phase begins begun behind]
          exact Or.inl (if_pos none_due)
        · exact Or.inr (Or.inr ⟨onRamp, Or.inl ⟨still, none_due⟩⟩)
    · obtain ⟨phaseStart, begins, begun⟩ := exists_phase_of_not_onRamp onRamp
      have begun_later : phaseStart ≤ later :=
        Nat.le_trans (Span.le_iff.mp begun) (Span.le_iff.mp le)
      rw [pace_in_phase begins begun enough] at stopped
      rw [pace_in_phase begins begun_later behind]
      by_cases none_due : plan.hold.rate = 0
      · exact Or.inl (if_pos none_due)
      · rw [if_neg none_due] at stopped ⊢
        have phase_hits_le : saturate (hits.toNat - plan.baseHits.toNat) ≤
            saturate (more.toNat - plan.baseHits.toNat) :=
          saturate_mono (Nat.sub_le_sub_right (UInt64.le_iff_toNat_le.mp hits_le) _)
        rcases ConstantPacer.pace_after_stop phase_hits_le stopped with stop | ⟨now, behindPhase⟩
        · exact Or.inl stop
        · exact Or.inr (Or.inl ⟨now, Or.inr ⟨phaseStart, begins, begun_later, behindPhase⟩⟩)

end Course

/-! ## Pacers of any kind -/

namespace Pacer

/-- The hits are fewer than the pacer's schedule makes due. -/
def Behind (p : Pacer) (elapsed : Span) (hits : UInt64) : Prop :=
  match p with
  | .constant c => c.Behind elapsed hits
  | .step s => s.course.Behind s.ready.value elapsed hits
  | .linear l => l.steps.course.Behind l.steps.ready.value elapsed hits

theorem capped_mono {p : Pacer} {hits more : UInt64} (le : hits ≤ more)
    (reached : p.capped hits = true) : p.capped more = true := by
  cases p with
  | constant c => exact ConstantPacer.capped_mono le reached
  | step s => exact ConstantPacer.capped_mono le reached
  | linear l =>
      simp only [capped, Bool.or_eq_true] at reached ⊢
      exact reached.imp (ConstantPacer.capped_mono le) (ConstantPacer.capped_mono le)

theorem behind_of_planned {p : Pacer} {course : Course} {plan : Plan}
    (planned : p.planned? = some (course, plan)) {elapsed : Span} {hits : UInt64}
    (behind : course.Behind plan elapsed hits) : p.Behind elapsed hits := by
  cases p with
  | constant c => cases planned
  | step s =>
      cases planned
      exact behind
  | linear l =>
      cases planned
      exact behind

/-- The end of a run is final, but for two cases.  A caller that comes later and with more
hits than one that was told to stop is told to stop as well, unless no cap of the pacer's own
is reached and it is behind schedule, which sends it on at once, or the other caller was on
the ramp and since then a constant phase with a rate has begun or the ramp has risen. -/
theorem stopped_for_later_callers (p : Pacer) {elapsed later : Span} {hits more : UInt64}
    (le : elapsed ≤ later) (hits_le : hits ≤ more)
    (stopped : (p.pace elapsed hits).value = .stop) :
    (p.pace later more).value = .stop ∨
      p.capped more = false ∧
        ((p.pace later more).value = .now ∧ p.Behind later more ∨
          ∃ course plan, p.planned? = some (course, plan) ∧ Course.OnRamp plan elapsed ∧
            (¬ Course.OnRamp plan later ∧ plan.hold.rate ≠ 0 ∨
              course.ramp.rising = true ∧
                course.rate plan elapsed < course.rate plan later)) := by
  cases reached : p.capped more with
  | true => exact Or.inl (pace_of_capped reached later)
  | false =>
      have below : p.capped hits = false := by
        by_contra early
        exact absurd reached (by simp [capped_mono hits_le (by simpa using early)])
      cases planned : p.planned? with
      | none =>
          cases p with
          | constant c =>
              rcases ConstantPacer.pace_after_stop hits_le stopped with stop | goOn
              · exact Or.inl stop
              · exact Or.inr ⟨rfl, Or.inl goOn⟩
          | step s => cases planned
          | linear l => cases planned
      | some followed =>
          obtain ⟨course, plan⟩ := followed
          rw [pace_of_planned planned below] at stopped
          rw [pace_of_planned planned reached]
          rcases Course.pace_after_stop le hits_le stopped with stop | ⟨now, behind⟩ | goneOn
          · exact Or.inl stop
          · exact Or.inr ⟨rfl, Or.inl ⟨now, behind_of_planned planned behind⟩⟩
          · exact Or.inr ⟨rfl, Or.inr ⟨course, plan, rfl, goneOn⟩⟩

/-- A ramp that has fallen to nothing has stopped for good. -/
theorem stopped_for_later_callers_fallen :
    let p : Pacer := .step { course := { ramp := ⟨10, -5, .ofSeconds 1, by decide, by decide,
      by decide⟩ } }
    (p.pace (.ofSeconds 3) 15).value = .stop ∧ (p.pace (.ofSeconds 4) 16).value = .stop := by
  intro p
  have stopped : (p.pace (.ofSeconds 3) 15).value = .stop := by decide +kernel
  refine ⟨stopped, ?_⟩
  have later : Span.ofSeconds 3 ≤ .ofSeconds 4 := by decide
  have more : (15 : UInt64) ≤ 16 := by decide
  rcases p.stopped_for_later_callers later more stopped with
    stop | ⟨-, ⟨now, -⟩ | ⟨course, plan, planned, -, ⟨left, -⟩ | ⟨rising, -⟩⟩⟩
  · exact stop
  · exact absurd now (by decide +kernel)
  · have noPhase : p.planned?.map (·.2.constantAt?) = some none := by decide +kernel
    rw [planned, Option.map_some, Option.some.injEq] at noPhase
    exact absurd (fun phaseStart begins => absurd (noPhase.symm.trans begins) (by simp)) left
  · have falling : p.planned?.map (·.1.ramp.rising) = some false := by decide +kernel
    rw [planned, Option.map_some, Option.some.injEq] at falling
    exact absurd rising (by simp [falling])

/-- The three ways out of a stop: a caller that is behind schedule by then, a ramp that has
risen, and a constant phase behind a ramp that had fallen to nothing. -/
theorem resumed_after_stop :
    let constant : Pacer := .constant { rate := 1 }
    let rising : Pacer := .step { course := { ramp := ⟨1, 1, .ofSeconds 1, by decide, by decide,
      by decide⟩ } }
    let held : Pacer := .step { course :=
      { ramp := ⟨10, -5, .ofSeconds 1, by decide, by decide, by decide⟩
        hold := { rate := 5 }
        loadDuration? := some (.ofSeconds 10) } }
    ((constant.pace .zero 9223372037).value = .stop ∧
      (constant.pace (.ofSeconds 9223372038) 9223372037).value = .now) ∧
    ((rising.pace .zero 10000000000).value = .stop ∧
      (rising.pace (.ofSeconds 1) 10000000000).value ≠ .stop) ∧
    ((held.pace (.ofSeconds 3) 15).value = .stop ∧
      (held.pace (.ofSeconds 10) 15).value = .after (.ofNanos 200000000)) := by
  decide +kernel

end Pacer

end LoadShape.Pacing
