import LoadShape.Schedule.Concurrency

/-!
# Profiles

A profile has the load schedule and the concurrency schedule of one run.
-/

namespace LoadShape.Schedule

/-- The schedules of one run. -/
structure Profile where
  load : LoadSchedule := .unlimited
  concurrency : ConcurrencySchedule := .usual
  deriving DecidableEq

/-- Whether both schedules keep the rules; the load schedule is looked at first. -/
def Profile.validate (p : Profile) : Except Rejection Unit :=
  match p.load.validate with
  | .error rejection => .error rejection
  | .ok () => p.concurrency.validate

end LoadShape.Schedule
