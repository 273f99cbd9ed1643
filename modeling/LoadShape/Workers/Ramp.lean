import LoadShape.Time.Span
import LoadShape.Workers.TickStream

/-!
# Worker ramps

A worker ramp starts with some workers and adds a step, which may be negative,
after every period.  It ends when its time budget is spent, with one last change
towards the target; or, without a budget, when the target is reached; and a
falling ramp also ends when no workers are left.
-/

namespace LoadShape.Workers

open LoadShape.Time

/-- A number of workers that changes in steps. -/
structure WorkerRamp where
  start : UInt32
  step : Int64
  period : Span
  /-- The number of workers to arrive at, zero for none. -/
  target : UInt32 := 0
  /-- The time after which the ramp ends. -/
  budget? : Option Span := none
  step_ne_zero : step ≠ 0
  period_ne_zero : period.nanos ≠ 0

namespace WorkerRamp

/-- Whether the number of workers rises. -/
def rising (r : WorkerRamp) : Bool := 0 < r.step

/-- Whether there is a target and `workers` are at it or past it. -/
def reached (r : WorkerRamp) (workers : Int) : Bool :=
  0 < r.target && (if r.rising then r.target.toNat ≤ workers else workers ≤ r.target.toNat)

/-- Whether there is a target and `workers` are at it or short of it. -/
def shortOf (r : WorkerRamp) (workers : Int) : Bool :=
  0 < r.target && (if r.rising then workers ≤ r.target.toNat else r.target.toNat ≤ workers)

/-- The last change when the budget is spent. -/
def correction (r : WorkerRamp) (workers : Int) : Int :=
  if r.shortOf workers then r.target.toNat - workers else 0

/-- The next step: a falling ramp ends without workers, and no step removes more
workers than there are. -/
def stepFrom (r : WorkerRamp) (workers : Int) : Tick :=
  if !r.rising && workers ≤ 0 then ⟨0, true⟩
  else ⟨max r.step.toInt (-workers), false⟩

/-- The change that is due `elapsed` nanoseconds after the ramp began. -/
def tickAt (r : WorkerRamp) (workers : Int) (elapsed : Nat) : Tick :=
  match r.budget? with
  | some budget =>
    if budget.nanos ≤ elapsed then ⟨r.correction workers, true⟩ else r.stepFrom workers
  | none => if r.reached workers then ⟨0, true⟩ else r.stepFrom workers

end WorkerRamp

end LoadShape.Workers
