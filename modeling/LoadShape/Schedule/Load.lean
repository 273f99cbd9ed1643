import LoadShape.Pacing.Pacer

/-!
# Load schedules

A load schedule describes the rate of hits over time: constant, in steps, or along
a line.  It can be checked on its own, and a pacer can be built from it.
-/

namespace LoadShape.Schedule

open LoadShape.Pacing LoadShape.Time

/-- The rules that every ramp keeps: it ends elsewhere than it starts, and it
changes. -/
def checkRamp (subject : Subject) (start : Nat) (step : Int) (target : Nat) :
    Except Rejection Unit :=
  if start = target then .error (.equalEnds subject)
  else if step = 0 then .error (.zeroStep subject)
  else .ok ()

/-- The rate of hits over time.  Caps and targets of zero are none. -/
inductive LoadSchedule where
  | constant (rate cap : UInt64)
  | step (start : UInt64) (change : Int64) (period : Span) (target : UInt64)
    (duration? : Option Span) (cap : UInt64)
  | line (start : UInt64) (slope : Int64) (target : UInt64) (duration? : Option Span)
    (cap : UInt64)
  deriving DecidableEq

namespace LoadSchedule

/-- Hits at any rate. -/
def unlimited : LoadSchedule := .constant 0 0

instance : Inhabited LoadSchedule := ⟨unlimited⟩

/-- Whether the schedule keeps the rules. -/
def validate : LoadSchedule → Except Rejection Unit
  | .constant _ _ => .ok ()
  | .step start change period target _ _ =>
    match checkRamp .load start.toNat change.toInt target.toNat with
    | .error rejection => .error rejection
    | .ok () => if period.nanos = 0 then .error (.zeroPeriod .load) else .ok ()
  | .line start slope target _ _ => checkRamp .load start.toNat slope.toInt target.toNat

/-- The pacer that follows the schedule. -/
def build (s : LoadSchedule) : Except Rejection Pacer := do
  s.validate
  match s with
  | .constant rate cap => return .constant { rate, cap }
  | .step start change period target duration? cap =>
    let pacer ← StepPacer.make start change period
    return .step
      (((pacer.withHold { rate := target }).withLoadDuration (duration?.getD .zero)).withCap cap)
  | .line start slope target duration? cap =>
    let pacer ← LinearPacer.make start slope
    return .linear
      (((pacer.withHold { rate := target }).withLoadDuration (duration?.getD .zero)).withCap cap)

end LoadSchedule

end LoadShape.Schedule
