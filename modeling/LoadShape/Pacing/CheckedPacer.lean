import LoadShape.Number.Checked
import LoadShape.Pacing.Pacer

/-!
# Pacing in checked arithmetic

The plan, the rate and the pace of a pacer once more, operation by operation in the types in
which a machine works them out: counters in unsigned 64 bits, times in nanoseconds in unsigned
128 bits, the rate that a ramp reaches in signed 128 bits, rates and expected hits in binary64.
Operations that stop at the end of their type by themselves, and conversions that do, cannot
fail; the others are checked.
-/

namespace LoadShape.Time

open LoadShape.Number LoadShape.Number.Checked

/-- The time from an earlier instant to a later one. -/
def Span.sinceChecked (later earlier : Span) : Checked Span :=
  keep (earlier ≤ later) (later - earlier)

end LoadShape.Time

namespace LoadShape.Pacing

open LoadShape.Number LoadShape.Number.Checked LoadShape.Time

/-- Whether hits at the interval, in whole nanoseconds, go beyond the last instant of any
schedule.  There is no such end where the interval is none. -/
def outOfRangeChecked (interval : Nat) (hits : UInt64) : Checked Bool :=
  if interval = 0 then .ok false
  else do
    let last ← quotient scheduleEnd interval
    return last < hits.toNat

namespace ConstantPacer

/-- What to do before the next hit. -/
def paceChecked (p : ConstantPacer) (elapsed : Span) (hits : UInt64) : Checked Pace :=
  if capped p.cap hits then .ok .stop
  else if p.rate = 0 then .ok .now
  else if hits.toNat < p.owed elapsed then .ok .now
  else do
    let interval ← quotient nanosPerSecond p.rate.toNat
    let outOfRange ← outOfRangeChecked interval hits
    if outOfRange then .ok .stop
    else do
      let due ← word ((next hits).toNat * interval)
      return .after (.ofNanos due - elapsed)

/-- The target rate. -/
def rateChecked (p : ConstantPacer) : Checked Rat := double p.rate.toNat

end ConstantPacer

/-- The number of whole periods in `elapsed`. -/
def wholePeriodsChecked (elapsed period : Span) : Checked UInt64 := do
  let nanos ← wide elapsed.nanos
  let length ← wide period.nanos
  let periods ← quotient nanos length
  return saturate periods

/-- The start of period number `n`, or the last nanosecond that fits a 64-bit word. -/
def periodStartChecked (period : Span) (n : Nat) : Checked Span := do
  let length ← wide period.nanos
  return .ofNanos (min (length * n) wordMax)

/-- The seconds of a span. -/
def secondsChecked (t : Span) : Checked Rat := do
  let seconds ← double t.seconds
  let part ← ratio t.subseconds nanosPerSecond
  double (seconds + part)

namespace Ramp

/-- The rate after `elapsed`, never below zero. -/
def rateAtChecked (r : Ramp) (elapsed : Span) : Checked Rat := do
  let steps ← wholePeriodsChecked elapsed r.period
  let start ← double r.start.toNat
  let step ← double r.step.toInt
  let count ← double steps.toNat
  let change ← double (step * count)
  let rate ← double (start + change)
  return if rate < 0 then 0 else rate

/-- The rate after some steps in whole numbers. -/
def rateAfterChecked (r : Ramp) (steps : UInt64) : Checked UInt64 := do
  let change ← signedWide (r.step.toInt * steps.toNat)
  let rate ← signedWide (r.start.toNat + change)
  return saturate rate.toNat

end Ramp

/-- The least number from `i` on that has the property, among `count` candidates. -/
def leastFromChecked? (property : Nat → Checked Bool) : (count i : Nat) → Checked (Option Nat)
  | 0, _ => .ok none
  | count + 1, i => do
    let here ← property i
    if here then .ok (some i) else leastFromChecked? property count (i + 1)

namespace Course

/-- Whether the ramp is past the rate to hold when period number `n` starts. -/
def pastHoldChecked (c : Course) (n : Nat) : Checked Bool := do
  let start ← periodStartChecked c.ramp.period n
  let rate ← c.ramp.rateAtChecked start
  let target ← double c.hold.rate.toNat
  return if c.ramp.rising then target < rate else rate < target

/-- The steps within which a ramp in whole numbers passes the rate to hold. -/
def searchBoundChecked (c : Course) : Checked Nat := do
  let distance := (c.hold.rate.toNat - c.ramp.start.toNat : Int).natAbs
  let steps ← quotient distance c.ramp.step.toInt.natAbs
  word (steps + 1)

/-- The first period at whose start the ramp is past the rate to hold. -/
def crossingChecked? (c : Course) : Checked (Option Nat) := do
  let bound ← c.searchBoundChecked
  leastFromChecked? c.pastHoldChecked (bound + 1) 0

/-- When the constant phase begins. -/
def constantAtChecked? (c : Course) : Checked (Option Span) :=
  match c.loadDuration? with
  | some duration => .ok (some duration)
  | none =>
    if c.hold.rate = 0 then .ok none
    else do
      let crossing? ← c.crossingChecked?
      match crossing? with
      | some n => do
        let start ← periodStartChecked c.ramp.period n
        return start.nonzero?
      | none => .ok none

/-- The pacer of the constant phase. -/
def heldPacerChecked (c : Course) : Checked ConstantPacer :=
  match c.loadDuration? with
  | some duration =>
    if c.hold.rate = 0 then do
      let steps ← wholePeriodsChecked duration c.ramp.period
      let rate ← c.ramp.rateAfterChecked steps
      return { rate }
    else .ok c.hold
  | none => .ok c.hold

/-- The rate after `t`, given when the constant phase begins and at which rate. -/
def rateWithChecked (c : Course) (constantAt? : Option Span) (held : UInt64) (t : Span) :
    Checked Rat :=
  match constantAt? with
  | some phaseStart => if phaseStart ≤ t then double held.toNat else c.ramp.rateAtChecked t
  | none => c.ramp.rateAtChecked t

/-- The hits due in the first period and the `n` periods after it. -/
def hitsOfPeriodsChecked (c : Course) (constantAt? : Option Span) (held : UInt64) :
    (n : Nat) → Checked Rat
  | 0 => do
    let seconds ← secondsChecked c.ramp.period
    let start ← double c.ramp.start.toNat
    double (seconds * start)
  | n + 1 => do
    let total ← c.hitsOfPeriodsChecked constantAt? held n
    let start ← periodStartChecked c.ramp.period (n + 1)
    let rate ← c.rateWithChecked constantAt? held start
    let seconds ← secondsChecked c.ramp.period
    let more ← double (rate * seconds)
    double (total + more)

/-- The hits due by `t`. -/
def hitsWithChecked (c : Course) (constantAt? : Option Span) (held : UInt64) (t : Span) :
    Checked Rat := do
  let periods ← wholePeriodsChecked t c.ramp.period
  if periods = 0 then do
    let seconds ← secondsChecked t
    let start ← double c.ramp.start.toNat
    double (seconds * start)
  else do
    let total ← c.hitsOfPeriodsChecked constantAt? held (periods.toNat - 1)
    let start ← periodStartChecked c.ramp.period periods.toNat
    let part ← secondsChecked (t - start)
    let rate ← c.rateWithChecked constantAt? held t
    let more ← double (part * rate)
    double (total + more)

/-- The plan of the constant phase. -/
def planChecked (c : Course) : Checked Plan := do
  let held ← c.heldPacerChecked
  let constantAt? ← c.constantAtChecked?
  match constantAt? with
  | some phaseStart =>
    let hits ← c.hitsWithChecked constantAt? held.rate phaseStart
    return { constantAt?, hold := held, baseHits := wholePart hits }
  | none => return { constantAt?, hold := held, baseHits := 0 }

/-- What to do before the next hit while the ramp lasts, at a rate above zero. -/
def rampPaceChecked (rate expected : Rat) (hits : UInt64) : Checked Pace := do
  let interval ← ratio nanosPerSecond rate
  let outOfRange ← outOfRangeChecked (wholePart interval).toNat hits
  if outOfRange then .ok .stop
  else do
    let count ← double (next hits).toNat
    let missing ← double (count - expected)
    let wait ← double (interval * missing)
    return .after (.ofNanos (wholePart wait).toNat)

/-- What to do before the next hit on the ramp. -/
def onRampChecked (c : Course) (p : Plan) (expected : Rat) (elapsed : Span) (hits : UInt64) :
    Checked Pace := do
  let rate ← c.rateWithChecked p.constantAt? p.hold.rate elapsed
  if rate ≤ 0 then .ok .stop else rampPaceChecked rate expected hits

/-- What to do before the next hit under a plan, without a cap. -/
def paceChecked (c : Course) (p : Plan) (elapsed : Span) (hits : UInt64) : Checked Pace := do
  let expected ← c.hitsWithChecked p.constantAt? p.hold.rate elapsed
  if hits < wholePart expected then .ok .now
  else
    match p.constantAt? with
    | some phaseStart =>
      if phaseStart ≤ elapsed then
        if p.hold.rate = 0 then .ok .stop
        else do
          let since ← elapsed.sinceChecked phaseStart
          p.hold.paceChecked since (saturate (hits.toNat - p.baseHits.toNat))
      else c.onRampChecked p expected elapsed hits
    | none => c.onRampChecked p expected elapsed hits

end Course

namespace StepPacer

/-- The plan, worked out now unless it is known. -/
def planChecked (p : StepPacer) : Checked Plan :=
  match p.plan? with
  | some plan => .ok plan
  | none => p.course.planChecked

/-- The target rate at `elapsed`. -/
def rateChecked (p : StepPacer) (elapsed : Span) : Checked Rat := do
  let plan ← p.planChecked
  p.course.rateWithChecked plan.constantAt? plan.hold.rate elapsed

/-- What to do before the next hit. -/
def paceChecked (p : StepPacer) (elapsed : Span) (hits : UInt64) : Checked Pace :=
  if ConstantPacer.capped p.cap hits then .ok .stop
  else do
    let plan ← p.planChecked
    p.course.paceChecked plan elapsed hits

end StepPacer

/-- What to do before the next hit. -/
def LinearPacer.paceChecked (p : LinearPacer) (elapsed : Span) (hits : UInt64) : Checked Pace :=
  if ConstantPacer.capped p.cap hits then .ok .stop else p.steps.paceChecked elapsed hits

namespace Pacer

/-- The plan of the constant phase; a constant pacer has none. -/
def planChecked? : Pacer → Checked (Option Plan)
  | .constant _ => .ok none
  | .step s => s.planChecked.map some
  | .linear l => l.steps.planChecked.map some

/-- The target rate at `elapsed`. -/
def rateChecked (p : Pacer) (elapsed : Span) : Checked Rat :=
  match p with
  | .constant c => c.rateChecked
  | .step s => s.rateChecked elapsed
  | .linear l => l.steps.rateChecked elapsed

/-- What to do before the next hit. -/
def paceChecked (p : Pacer) (elapsed : Span) (hits : UInt64) : Checked Pace :=
  match p with
  | .constant c => c.paceChecked elapsed hits
  | .step s => s.paceChecked elapsed hits
  | .linear l => l.paceChecked elapsed hits

end Pacer

end LoadShape.Pacing
