import LoadShape.Schedule.Load
import LoadShape.Workers.Ticker

/-!
# Concurrency schedules

A concurrency schedule describes the number of workers over time: constant, in
steps, or along a line.  It can be checked on its own, and a ticker can be built
from it.
-/

namespace LoadShape.Schedule

open LoadShape.Time LoadShape.Workers

/-- The number of workers over time.  Targets of zero are none. -/
inductive ConcurrencySchedule where
  | constant (workers : UInt32)
  | step (start : UInt32) (change : Int64) (period : Span) (target : UInt32)
    (duration? : Option Span)
  | line (start : UInt32) (slope : Int64) (target : UInt32) (duration? : Option Span)
  deriving DecidableEq

namespace ConcurrencySchedule

/-- The number of workers where none is given. -/
def usualWorkers : UInt32 := 50

/-- The schedule where none is given. -/
def usual : ConcurrencySchedule := .constant usualWorkers

instance : Inhabited ConcurrencySchedule := ⟨usual⟩

/-- Whether the schedule keeps the rules. -/
def validate : ConcurrencySchedule → Except Rejection Unit
  | .constant workers => if workers = 0 then .error .noWorkers else .ok ()
  | .step start change period target _ =>
    match checkRamp .concurrency start.toNat change.toInt target.toNat with
    | .error rejection => .error rejection
    | .ok () => if period.nanos = 0 then .error (.zeroPeriod .concurrency) else .ok ()
  | .line start slope target _ => checkRamp .concurrency start.toNat slope.toInt target.toNat

/-- The ticker that follows the schedule. -/
def build (s : ConcurrencySchedule) : Except Rejection Ticker := do
  s.validate
  match s with
  | .constant workers => return .constant workers
  | .step start change period target duration? =>
    let ticker ← StepTicker.make start change period
    return .step ((ticker.withTarget target).withBudget (duration?.getD .zero))
  | .line start slope target duration? =>
    let ticker ← LineTicker.make start slope
    return .line ((ticker.withTarget target).withBudget (duration?.getD .zero))

end ConcurrencySchedule

end LoadShape.Schedule
