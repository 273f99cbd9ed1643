import LoadShape.Number.Rounding
import LoadShape.Number.Word
import LoadShape.Fault
import LoadShape.Pacing.Constant
import LoadShape.Text.Numeral
import LoadShape.Time.SpanText

/-!
# Ramps

A ramp is a rate that starts at `start` hits per second and changes by `step`
after every `period`.  It may pass into a constant phase: after a given load
duration, or as soon as it is past the rate that is to be held.

Every rate and every sum of hits is rounded after each operation, in the order in
which the operations stand here.
-/

namespace LoadShape.Pacing

open LoadShape.Number LoadShape.Time

/-- The number of whole periods in `elapsed`. -/
def wholePeriods (elapsed period : Span) : UInt64 :=
  saturate (elapsed.nanos / period.nanos)

/-- The start of period number `n`, or the last nanosecond that fits a 64-bit
word. -/
def periodStart (period : Span) (n : Nat) : Span :=
  .ofNanos (min (period.nanos * n) wordMax)

/-- The seconds of a span. -/
def roundedSeconds (t : Span) : Rat :=
  rounded (rounded t.seconds + rounded (t.subseconds / nanosPerSecond))

/-- A rate that changes in steps. -/
structure Ramp where
  start : UInt64
  step : Int64
  period : Span
  start_ne_zero : start ≠ 0
  step_ne_zero : step ≠ 0
  period_ne_zero : period.nanos ≠ 0
  deriving DecidableEq

namespace Ramp

/-- Whether the rate rises. -/
def rising (r : Ramp) : Bool := 0 < r.step

/-- The rate after `elapsed`, never below zero. -/
def rateAt (r : Ramp) (elapsed : Span) : Rat :=
  let steps := (wholePeriods elapsed r.period).toNat
  let rate := rounded (rounded r.start.toNat + rounded (rounded r.step.toInt * rounded steps))
  if rate < 0 then 0 else rate

/-- The rate after `n` steps in whole numbers, kept within a counter. -/
def rateAfter (r : Ramp) (n : Nat) : UInt64 :=
  saturate (r.start.toNat + r.step.toInt * n).toNat

/-- The ramp as it is shown. -/
def display (r : Ramp) : String :=
  "Step\x7bStep: " ++ Text.decimal r.step.toInt ++ " hits / " ++ r.period.text ++ "\x7d"

end Ramp

/-- A ramp with the conditions of its constant phase: the rate that is to be held,
zero for none, and the time after which the phase begins. -/
structure Course where
  ramp : Ramp
  hold : ConstantPacer := {}
  loadDuration? : Option Span := none
  deriving DecidableEq

/-- The constant phase of a course: when it begins, if ever, the pacer that it
follows, and the hits that are due before it. -/
structure Plan where
  constantAt? : Option Span
  hold : ConstantPacer
  baseHits : UInt64
  deriving DecidableEq

/-- What is worth a note although an answer is given. -/
inductive Warning where
  /-- A ramp that does not pass the rate to hold within the steps that should
  suffice. -/
  | neverCrosses (ramp : Ramp) (hold : UInt64) (steps : Nat)
  deriving DecidableEq

/-- The wording of a warning. -/
def Warning.text : Warning → String
  | .neverCrosses ramp hold steps =>
    ramp.display ++ " never crosses stop rate " ++ Text.decimal hold.toNat ++ " within " ++
      Text.decimal steps ++ " steps, ramping without a constant phase"

/-- The least number from `i` on that has the property, among `count` candidates. -/
def leastFrom? (property : Nat → Bool) : (count i : Nat) → Option Nat
  | 0, _ => none
  | count + 1, i => if property i then some i else leastFrom? property count (i + 1)

namespace Course

/-- Whether the ramp is past the rate to hold when period number `n` starts. -/
def pastHold (c : Course) (n : Nat) : Bool :=
  let rate := c.ramp.rateAt (periodStart c.ramp.period n)
  let target := rounded c.hold.rate.toNat
  if c.ramp.rising then target < rate else rate < target

/-- The steps within which a ramp in whole numbers passes the rate to hold. -/
def searchBound (c : Course) : Nat :=
  let distance := (c.hold.rate.toNat - c.ramp.start.toNat : Int).natAbs
  distance / c.ramp.step.toInt.natAbs + 1

/-- The first period at whose start the ramp is past the rate to hold. -/
def crossing? (c : Course) : Option Nat :=
  leastFrom? c.pastHold (c.searchBound + 1) 0

/-- When the constant phase begins.  A ramp that is past the rate from the start
on never enters it. -/
def constantAt? (c : Course) : Option Span :=
  match c.loadDuration? with
  | some duration => some duration
  | none =>
    if c.hold.rate = 0 then none
    else c.crossing?.bind fun n => (periodStart c.ramp.period n).nonzero?

/-- The pacer of the constant phase: the one that is set, or the rate that the
ramp has reached after the load duration. -/
def heldPacer (c : Course) : ConstantPacer :=
  match c.loadDuration? with
  | some duration =>
    if c.hold.rate = 0 then
      { rate := c.ramp.rateAfter (wholePeriods duration c.ramp.period).toNat }
    else c.hold
  | none => c.hold

/-- The rate after `t`, given when the constant phase begins and at which rate. -/
def rateWith (c : Course) (constantAt? : Option Span) (held : UInt64) (t : Span) : Rat :=
  match constantAt? with
  | some phaseStart => if phaseStart ≤ t then rounded held.toNat else c.ramp.rateAt t
  | none => c.ramp.rateAt t

/-- The hits due in the first `n` periods, for positive `n`: the first period at
the start rate, every other one at the rate of its start. -/
def hitsOfPeriods (c : Course) (constantAt? : Option Span) (held : UInt64) (n : Nat) : Rat :=
  let seconds := roundedSeconds c.ramp.period
  Nat.fold (n - 1)
    (fun i _ total =>
      let rate := c.rateWith constantAt? held (periodStart c.ramp.period (i + 1))
      rounded (total + rounded (rate * seconds)))
    (rounded (seconds * rounded c.ramp.start.toNat))

/-- The hits due by `t`: those of the whole periods, then those of the part of a
period that has begun, at the rate of `t`. -/
def hitsWith (c : Course) (constantAt? : Option Span) (held : UInt64) (t : Span) : Rat :=
  let n := (wholePeriods t c.ramp.period).toNat
  if n = 0 then rounded (roundedSeconds t * rounded c.ramp.start.toNat)
  else
    let partSeconds := roundedSeconds (t - periodStart c.ramp.period n)
    rounded (c.hitsOfPeriods constantAt? held n +
      rounded (partSeconds * c.rateWith constantAt? held t))

/-- The plan of the constant phase. -/
def plan (c : Course) : Plan :=
  let constantAt? := c.constantAt?
  let held := c.heldPacer
  { constantAt?
    hold := held
    baseHits :=
      match constantAt? with
      | some phaseStart => wholePart (c.hitsWith constantAt? held.rate phaseStart)
      | none => 0 }

/-- The warnings that come with the plan. -/
def planWarnings (c : Course) : List Warning :=
  if c.loadDuration? = none ∧ c.hold.rate ≠ 0 ∧ c.crossing? = none then
    [.neverCrosses c.ramp c.hold.rate c.searchBound]
  else []

/-- The rate after `t` under a plan. -/
def rate (c : Course) (p : Plan) (t : Span) : Rat :=
  c.rateWith p.constantAt? p.hold.rate t

/-- The hits due by `t` under a plan. -/
def expectedHits (c : Course) (p : Plan) (t : Span) : Rat :=
  c.hitsWith p.constantAt? p.hold.rate t

/-- What to do before the next hit while the ramp lasts, at a rate above zero. -/
def rampPace (rate expected : Rat) (hits : UInt64) : Pace :=
  let interval := rounded (nanosPerSecond / rate)
  let whole := (wholePart interval).toNat
  if whole ≠ 0 ∧ scheduleEnd / whole < hits.toNat then .stop
  else
    let missing := rounded (rounded (next hits).toNat - expected)
    .after (.ofNanos (wholePart (rounded (interval * missing))).toNat)

/-- What to do before the next hit under a plan, without a cap.  A hit that is
owed goes out at once; in the constant phase the pacer of that phase counts from
its beginning. -/
def pace (c : Course) (p : Plan) (elapsed : Span) (hits : UInt64) : Pace :=
  let expected := c.expectedHits p elapsed
  if hits < wholePart expected then .now
  else
    let onRamp :=
      let rate := c.rate p elapsed
      if rate ≤ 0 then .stop else rampPace rate expected hits
    match p.constantAt? with
    | some phaseStart =>
      if phaseStart ≤ elapsed then
        if p.hold.rate = 0 then .stop
        else p.hold.pace (elapsed - phaseStart) (saturate (hits.toNat - p.baseHits.toNat))
      else onRamp
    | none => onRamp

end Course

end LoadShape.Pacing
