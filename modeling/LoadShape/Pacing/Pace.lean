import LoadShape.Number.Word
import LoadShape.Time.Span

/-!
# Paces

A pacer tells a worker what to do before its next hit: stop, or wait for a while
and send it.
-/

namespace LoadShape.Pacing

open LoadShape.Time

/-- What to do before the next hit. -/
inductive Pace where
  /-- The run is over. -/
  | stop
  /-- The next hit is due after `wait`. -/
  | after (wait : Span)
  deriving DecidableEq

namespace Pace

/-- The next hit is due at once. -/
def now : Pace := .after .zero

/-- Whether the run is over. -/
def isStop : Pace → Bool
  | .stop => true
  | .after _ => false

/-- The time until the next hit; none at the end of a run. -/
def wait : Pace → Span
  | .stop => .zero
  | .after wait => wait

@[simp]
theorem isStop_after (wait : Span) : (after wait).isStop = false := rfl

@[simp]
theorem wait_now : now.wait = .zero := rfl

end Pace

/-- The last nanosecond for which a hit is scheduled. -/
def scheduleEnd : Nat := Number.signedMax

end LoadShape.Pacing
