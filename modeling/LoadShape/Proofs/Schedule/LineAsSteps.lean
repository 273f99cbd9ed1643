import LoadShape.Proofs.Pacing.KeptPlan
import LoadShape.Schedule.Concurrency

/-!
# Lines as steps of a second

A line is a ramp whose steps take a second.  A line and such steps keep the rules or break them
alike, and what is built from the one cannot be told from what is built from the other, by any
calls to the pacer and by any consumer of the ticker.
-/

namespace LoadShape.Pacing

open LoadShape.Time

/-! ## Pacers -/

namespace StepPacer

variable {p : StepPacer} {hits : UInt64}

theorem pace_of_reached (reached : ConstantPacer.capped p.cap hits = true) (elapsed : Span) :
    p.pace elapsed hits = { value := .stop, pacer := p } := if_pos reached

theorem pace_of_below (below : ConstantPacer.capped p.cap hits = false) (elapsed : Span) :
    p.pace elapsed hits =
      { p.ready with value := p.course.pace p.ready.value elapsed hits } :=
  if_neg (by simp [below])

end StepPacer

namespace LinearPacer

variable {l : LinearPacer} {hits : UInt64}

theorem pace_of_reached (reached : ConstantPacer.capped l.cap hits = true) (elapsed : Span) :
    l.pace elapsed hits = { value := .stop, pacer := l } := if_pos reached

theorem pace_of_below (below : ConstantPacer.capped l.cap hits = false) (elapsed : Span) :
    l.pace elapsed hits = l.ofSteps (l.steps.pace elapsed hits) := if_neg (by simp [below])

end LinearPacer

namespace Pacer

/-- A linear pacer, and the step pacer that has its steps and its cap. -/
inductive SameSteps : Pacer → Pacer → Prop
  | intro {l : LinearPacer} (uncapped : l.steps.cap = 0) :
      SameSteps (.linear l) (.step (l.steps.withCap l.cap))

variable {p q : Pacer}

/-- A question is answered alike, with the same warnings, and leaves the same steps. -/
theorem SameSteps.ask (same : SameSteps p q) (question : Question) :
    (p.ask question).value = (q.ask question).value ∧
      (p.ask question).warnings = (q.ask question).warnings ∧
      SameSteps (p.ask question).pacer (q.ask question).pacer := by
  cases same with
  | @intro l uncapped =>
      have planned : SameSteps (.linear { l with steps := l.steps.ready.pacer })
          (.step (l.steps.ready.pacer.withCap l.cap)) :=
        .intro (l.steps.ready_cap.trans uncapped)
      cases question with
      | plan =>
          simp only [Pacer.ask, plan?, Answer.reply, lift, LinearPacer.ready, LinearPacer.ofSteps,
            StepPacer.ready_withCap, true_and]
          exact planned
      | rate elapsed =>
          simp only [Pacer.ask, rate, Answer.reply, lift, LinearPacer.rate, LinearPacer.ofSteps,
            StepPacer.rate, StepPacer.ready_withCap, true_and]
          exact ⟨rfl, planned⟩
      | pace elapsed hits =>
          have inner : ConstantPacer.capped l.steps.cap hits = false := by
            rw [uncapped]
            rfl
          cases cap : ConstantPacer.capped l.cap hits with
          | true =>
              have outer : ConstantPacer.capped (l.steps.withCap l.cap).cap hits = true := cap
              simp only [Pacer.ask, pace, Answer.reply, lift, LinearPacer.pace_of_reached cap,
                StepPacer.pace_of_reached outer, true_and]
              exact .intro uncapped
          | false =>
              have outer : ConstantPacer.capped (l.steps.withCap l.cap).cap hits = false := cap
              simp only [Pacer.ask, pace, Answer.reply, lift, LinearPacer.pace_of_below cap,
                LinearPacer.ofSteps, StepPacer.pace_of_below inner,
                StepPacer.pace_of_below outer, StepPacer.ready_withCap, true_and]
              exact ⟨rfl, planned⟩

/-- The builders change both alike. -/
theorem SameSteps.call (same : SameSteps p q) (call : Call) :
    SameSteps (p.call call) (q.call call) := by
  cases call with
  | ask question => exact (same.ask question).2.2
  | hold hold =>
      cases same with
      | @intro l uncapped => exact .intro (l := l.withHold hold) uncapped
  | loadDuration duration =>
      cases same with
      | @intro l uncapped => exact .intro (l := l.withLoadDuration duration) uncapped
  | cap cap =>
      cases same with
      | @intro l uncapped => exact .intro (l := l.withCap cap) uncapped

theorem SameSteps.after (same : SameSteps p q) (calls : List Call) :
    SameSteps (p.after calls) (q.after calls) := by
  induction calls generalizing p q with
  | nil => exact same
  | cons call calls ih => exact ih (same.call call)

theorem SameSteps.warnings_eq (same : SameSteps p q) (calls : List Call) :
    p.warnings calls = q.warnings calls := by
  induction calls generalizing p q with
  | nil => rfl
  | cons call calls ih =>
      have first : p.warningsOf call = q.warningsOf call := by
        cases call with
        | ask question => exact (same.ask question).2.1
        | hold hold => rfl
        | loadDuration duration => rfl
        | cap cap => rfl
      rw [warnings, warnings, first, ih (same.call call)]

/-- After any calls both answer every question alike, and have given the same warnings. -/
def Indistinguishable (p q : Pacer) : Prop :=
  ∀ calls, (∀ question, ((p.after calls).ask question).value =
      ((q.after calls).ask question).value) ∧
    p.warnings calls = q.warnings calls

theorem SameSteps.indistinguishable (same : SameSteps p q) : Indistinguishable p q :=
  fun calls => ⟨fun question => ((same.after calls).ask question).1, same.warnings_eq calls⟩

end Pacer

end LoadShape.Pacing

namespace LoadShape.Workers

/-! ## Tickers -/

namespace Ticker

/-- No consumer sees a difference on any stream, in any number of runs and after them. -/
def Indistinguishable (t u : Ticker) : Prop :=
  ∀ consumer n finishFirst stream,
    t.session consumer n finishFirst stream = u.session consumer n finishFirst stream

variable {t u : Ticker}

theorem run_eq_of_source (same : t.source = u.source) : t.run = u.run := by
  funext consumer stream
  simp only [run, same]

theorem runs_eq_of_source (same : t.source = u.source) (consumer : Consumer) (n : Nat)
    (stream : TickStream) : t.runs consumer n stream = u.runs consumer n stream := by
  induction n generalizing stream with
  | zero => rfl
  | succ n ih => simp only [runs, run_eq_of_source same, ih]

/-- A consumer sees nothing of a ticker but its ticks. -/
theorem indistinguishable_of_source (same : t.source = u.source) : Indistinguishable t u := by
  intro consumer n finishFirst stream
  simp only [session, runs_eq_of_source same, run_eq_of_source same]

end Ticker

end LoadShape.Workers

namespace LoadShape.Schedule

open LoadShape.Pacing LoadShape.Time LoadShape.Workers

/-! ## Schedules -/

/-- Both are built, and then are alike, or both are rejected, with reports of one category. -/
inductive BuiltAlike {α : Type} (alike : α → α → Prop) :
    Except Rejection α → Except Rejection α → Prop
  | built {a b : α} (same : alike a b) : BuiltAlike alike (.ok a) (.ok b)
  | rejected {r s : Rejection} (category : r.report.category = s.report.category) :
      BuiltAlike alike (.error r) (.error s)

theorem slope_ne_zero_of_checkRamp {subject : Subject} {start target : Nat} {slope : Int64}
    (kept : checkRamp subject start slope.toInt target = .ok ()) : slope ≠ 0 := by
  rintro rfl
  unfold checkRamp at kept
  split at kept
  · cases kept
  · cases kept

theorem second_ne_zero : (Span.ofSeconds 1).nanos ≠ 0 := by decide

namespace LoadSchedule

variable (start : UInt64) (slope : Int64) (target : UInt64) (duration? : Option Span)
  (cap : UInt64)

theorem validate_line :
    (line start slope target duration? cap).validate =
      (step start slope (.ofSeconds 1) target duration? cap).validate := by
  rw [validate, validate, if_neg second_ne_zero]
  cases checkRamp .load start.toNat slope.toInt target.toNat <;> rfl

theorem build_line :
    BuiltAlike Pacer.Indistinguishable (line start slope target duration? cap).build
      (step start slope (.ofSeconds 1) target duration? cap).build := by
  have alike := validate_line start slope target duration? cap
  cases kept : (line start slope target duration? cap).validate with
  | error rejection =>
      rw [build, build, ← alike, kept]
      exact .rejected rfl
  | ok =>
      have slopeGiven : slope ≠ 0 := slope_ne_zero_of_checkRamp kept
      rw [build, build, ← alike, kept]
      by_cases startless : start = 0
      · -- Both constructors reject the start, each in its own words.
        simp only [LinearPacer.make, StepPacer.make, startless, slopeGiven, second_ne_zero,
          dif_neg, dif_pos, if_pos, not_false_eq_true]
        exact .rejected rfl
      · simp only [LinearPacer.make, StepPacer.make, startless, slopeGiven, second_ne_zero,
          dif_neg, if_neg, not_false_eq_true]
        exact .built (Pacer.SameSteps.intro rfl).indistinguishable

end LoadSchedule

namespace ConcurrencySchedule

variable (start : UInt32) (slope : Int64) (target : UInt32) (duration? : Option Span)

theorem validate_line :
    (line start slope target duration?).validate =
      (step start slope (.ofSeconds 1) target duration?).validate := by
  rw [validate, validate, if_neg second_ne_zero]
  cases checkRamp .concurrency start.toNat slope.toInt target.toNat <;> rfl

theorem build_line :
    BuiltAlike Ticker.Indistinguishable (line start slope target duration?).build
      (step start slope (.ofSeconds 1) target duration?).build := by
  have alike := validate_line start slope target duration?
  cases kept : (line start slope target duration?).validate with
  | error rejection =>
      rw [build, build, ← alike, kept]
      exact .rejected rfl
  | ok =>
      have slopeGiven : slope ≠ 0 := slope_ne_zero_of_checkRamp kept
      rw [build, build, ← alike, kept]
      simp only [LineTicker.make, StepTicker.make, slopeGiven, second_ne_zero, dif_neg, if_neg,
        not_false_eq_true]
      exact .built (Ticker.indistinguishable_of_source rfl)

end ConcurrencySchedule

/-- A line of hits or of workers keeps the rules exactly when the steps of a second do, breaks
the same one otherwise, and what is built from it passes for what is built from the steps. -/
theorem line_as_steps_of_a_second :
    (∀ start slope target duration? cap,
      (LoadSchedule.line start slope target duration? cap).validate =
          (LoadSchedule.step start slope (.ofSeconds 1) target duration? cap).validate ∧
        BuiltAlike Pacer.Indistinguishable
          (LoadSchedule.line start slope target duration? cap).build
          (LoadSchedule.step start slope (.ofSeconds 1) target duration? cap).build) ∧
      ∀ start slope target duration?,
        (ConcurrencySchedule.line start slope target duration?).validate =
            (ConcurrencySchedule.step start slope (.ofSeconds 1) target duration?).validate ∧
          BuiltAlike Ticker.Indistinguishable
            (ConcurrencySchedule.line start slope target duration?).build
            (ConcurrencySchedule.step start slope (.ofSeconds 1) target duration?).build := by
  constructor
  · intro start slope target duration? cap
    exact ⟨LoadSchedule.validate_line .., LoadSchedule.build_line ..⟩
  · intro start slope target duration?
    exact ⟨ConcurrencySchedule.validate_line .., ConcurrencySchedule.build_line ..⟩

end LoadShape.Schedule
