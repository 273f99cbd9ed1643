import LoadShape.Pacing.Ramp

/-!
# Step pacers

A step pacer follows a course.  The plan of the constant phase is worked out at
the first question that needs it and kept until the course changes; the warnings
that come with the plan are given then.
-/

namespace LoadShape.Pacing

open LoadShape.Time

/-- The answer to a question: what was asked for, the warnings given on the way,
and the pacer that later questions are put to. -/
structure Answer (pacer : Type) (value : Type) where
  value : value
  warnings : List Warning := []
  pacer : pacer

/-- A step pacer: its course, its own cap on hits, zero for none, and the plan if
it has been worked out. -/
structure StepPacer where
  course : Course
  cap : UInt64 := 0
  plan? : Option Plan := none
  deriving DecidableEq

namespace StepPacer

/-- A pacer with the given start rate, step and period. -/
def make (start : UInt64) (step : Int64) (period : Span) : Except Rejection StepPacer :=
  if hperiod : period.nanos = 0 then .error .stepPacerPeriodZero
  else if hstep : step = 0 then .error .stepPacerStepZero
  else if hstart : start = 0 then .error .stepPacerStartZero
  else .ok { course := { ramp := ⟨start, step, period, hstart, hstep, hperiod⟩ } }

/-- Hold the given pacer's rate once the ramp is past it. -/
def withHold (p : StepPacer) (hold : ConstantPacer) : StepPacer :=
  { p with course := { p.course with hold }, plan? := none }

/-- Ramp for the given time, then hold the rate; no time is no condition. -/
def withLoadDuration (p : StepPacer) (duration : Span) : StepPacer :=
  { p with course := { p.course with loadDuration? := duration.nonzero? }, plan? := none }

/-- Cap the number of hits, zero for no cap. -/
def withCap (p : StepPacer) (cap : UInt64) : StepPacer := { p with cap }

/-- The plan, worked out now unless it is known. -/
def ready (p : StepPacer) : Answer StepPacer Plan :=
  match p.plan? with
  | some plan => { value := plan, pacer := p }
  | none =>
    let plan := p.course.plan
    { value := plan
      warnings := p.course.planWarnings
      pacer := { p with plan? := some plan } }

/-- What to do before the next hit. -/
def pace (p : StepPacer) (elapsed : Span) (hits : UInt64) : Answer StepPacer Pace :=
  if ConstantPacer.capped p.cap hits then { value := .stop, pacer := p }
  else
    let r := p.ready
    { r with value := p.course.pace r.value elapsed hits }

/-- The target rate at `elapsed`. -/
def rate (p : StepPacer) (elapsed : Span) : Answer StepPacer Rat :=
  let r := p.ready
  { r with value := p.course.rate r.value elapsed }

/-- The pacer as it is shown. -/
def display (p : StepPacer) : String := p.course.ramp.display

theorem ready_of_plan {p : StepPacer} {plan : Plan} (h : p.plan? = some plan) :
    p.ready = { value := plan, pacer := p } := by
  simp [ready, h]

end StepPacer

end LoadShape.Pacing
