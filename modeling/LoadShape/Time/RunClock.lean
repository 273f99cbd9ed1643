import LoadShape.Time.Span

/-!
# The run clock

A monotonic time line, and a clock that remembers the instant at which a run
began.
-/

namespace LoadShape.Time

/-- The time line: the time that has passed since its origin. -/
structure Timeline where
  now : Span := .zero
  deriving DecidableEq

/-- Time passes. -/
def Timeline.advance (line : Timeline) (passed : Span) : Timeline :=
  ⟨line.now + passed⟩

/-- A clock anchored at the instant a run began. -/
structure RunClock where
  started : Span
  deriving DecidableEq

/-- A clock for a run that begins now. -/
def RunClock.start (line : Timeline) : RunClock := ⟨line.now⟩

/-- The time since the run began. -/
def RunClock.elapsed (clock : RunClock) (line : Timeline) : Span :=
  line.now - clock.started

end LoadShape.Time
