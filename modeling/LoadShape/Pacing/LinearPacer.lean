import LoadShape.Pacing.StepPacer

/-!
# Linear pacers

A linear pacer changes its rate by a slope every second.  It has steps of one
second and a cap of its own.
-/

namespace LoadShape.Pacing

open LoadShape.Time

/-- A linear pacer: the slope in hits per second and second, a cap on hits, zero
for none, and the steps of one second. -/
structure LinearPacer where
  slope : Int64
  cap : UInt64 := 0
  steps : StepPacer
  deriving DecidableEq

namespace LinearPacer

/-- A pacer with the given start rate and slope. -/
def make (start : UInt64) (slope : Int64) : Except Rejection LinearPacer :=
  if start = 0 then .error .linearPacerStartZero
  else if slope = 0 then .error .linearPacerSlopeZero
  else
    match StepPacer.make start slope (.ofSeconds 1) with
    | .error rejection => .error rejection
    | .ok steps => .ok { slope, steps }

/-- Hold the given pacer's rate once the ramp is past it. -/
def withHold (p : LinearPacer) (hold : ConstantPacer) : LinearPacer :=
  { p with steps := p.steps.withHold hold }

/-- Ramp for the given time, then hold the rate; no time is no condition. -/
def withLoadDuration (p : LinearPacer) (duration : Span) : LinearPacer :=
  { p with steps := p.steps.withLoadDuration duration }

/-- Cap the number of hits, zero for no cap. -/
def withCap (p : LinearPacer) (cap : UInt64) : LinearPacer := { p with cap }

/-- The answer of the steps, given by the linear pacer. -/
def ofSteps {value : Type} (p : LinearPacer) (a : Answer StepPacer value) :
    Answer LinearPacer value :=
  { value := a.value, warnings := a.warnings, pacer := { p with steps := a.pacer } }

/-- The plan, worked out now unless it is known. -/
def ready (p : LinearPacer) : Answer LinearPacer Plan := p.ofSteps p.steps.ready

/-- What to do before the next hit. -/
def pace (p : LinearPacer) (elapsed : Span) (hits : UInt64) : Answer LinearPacer Pace :=
  if ConstantPacer.capped p.cap hits then { value := .stop, pacer := p }
  else p.ofSteps (p.steps.pace elapsed hits)

/-- The target rate at `elapsed`. -/
def rate (p : LinearPacer) (elapsed : Span) : Answer LinearPacer Rat :=
  p.ofSteps (p.steps.rate elapsed)

/-- The pacer as it is shown. -/
def display (p : LinearPacer) : String :=
  "Linear\x7b" ++ Text.decimal p.slope.toInt ++ " hits / 1s\x7d"

end LinearPacer

end LoadShape.Pacing
