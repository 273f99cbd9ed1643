import LoadShape.Workers.Handover
import LoadShape.Workers.Ramp

/-!
# Tickers

A ticker hands over the changes of the number of workers: all workers at once, or
a ramp.  A session is what a consumer sees of a ticker over several runs.
-/

namespace LoadShape.Workers

open LoadShape.Time

/-- A ticker with steps of some length. -/
structure StepTicker where
  ramp : WorkerRamp

namespace StepTicker

/-- A ticker with the given start, step and period. -/
def make (start : UInt32) (step : Int64) (period : Span) : Except Rejection StepTicker :=
  if hstep : step = 0 then .error .stepTickerStepZero
  else if hperiod : period.nanos = 0 then .error .stepTickerPeriodZero
  else .ok { ramp := { start, step, period, step_ne_zero := hstep, period_ne_zero := hperiod } }

/-- Arrive at the given number of workers, zero for none. -/
def withTarget (t : StepTicker) (target : UInt32) : StepTicker :=
  { t with ramp := { t.ramp with target } }

/-- End after the given time; no time is no condition. -/
def withBudget (t : StepTicker) (budget : Span) : StepTicker :=
  { t with ramp := { t.ramp with budget? := budget.nonzero? } }

/-- The ticks of the ramp. -/
def source (t : StepTicker) : TickSource where
  first := ⟨t.ramp.start.toNat, false⟩
  period := t.ramp.period.nanos
  following := t.ramp.tickAt

end StepTicker

/-- A ticker that adds a slope every second, by steps of one second. -/
structure LineTicker where
  slope : Int64
  steps : StepTicker

namespace LineTicker

/-- A ticker with the given start and slope. -/
def make (start : UInt32) (slope : Int64) : Except Rejection LineTicker :=
  if slope = 0 then .error .lineTickerSlopeZero
  else
    match StepTicker.make start slope (.ofSeconds 1) with
    | .error rejection => .error rejection
    | .ok steps => .ok { slope, steps }

/-- Arrive at the given number of workers, zero for none. -/
def withTarget (t : LineTicker) (target : UInt32) : LineTicker :=
  { t with steps := t.steps.withTarget target }

/-- End after the given time; no time is no condition. -/
def withBudget (t : LineTicker) (budget : Span) : LineTicker :=
  { t with steps := t.steps.withBudget budget }

end LineTicker

/-- A ticker of any kind. -/
inductive Ticker where
  /-- All workers at once. -/
  | constant (workers : UInt32)
  | step (ticker : StepTicker)
  | line (ticker : LineTicker)

/-- The ticks of a ticker.  All workers at once are a single tick. -/
def Ticker.source : Ticker → TickSource
  | .constant workers =>
    { first := ⟨workers.toNat, true⟩, period := 0, following := fun _ _ => ⟨0, true⟩ }
  | .step ticker => ticker.source
  | .line ticker => ticker.steps.source

/-- How a consumer takes ticks: how many at most in one run, and how long it waits
before each of them. -/
structure Consumer where
  limit : Nat := 20
  delays : List Nat := []
  deriving DecidableEq, Repr

/-- How a run stands when its consumer is through. -/
inductive RunState where
  | over (outcome : Except TickerFault Unit)
  /-- The ticker still waits for its next tick to be taken. -/
  | running

/-- What a consumer saw of one run. -/
structure RunRecord where
  events : List Event
  state : RunState

/-- One run of a ticker on a stream, and the stream after it, on a system that starts the thread
of the ticker. -/
def Ticker.run (ticker : Ticker) (consumer : Consumer) (stream : TickStream) :
    RunRecord × TickStream :=
  if stream.closed then (⟨[], .over (.error .finished)⟩, stream)
  else
    let source := ticker.source
    let start := (Run.initial source stream.queue).settle source stream.capacity
    let (events, last) := consume source stream.capacity consumer.limit consumer.delays 0 start
    let state :=
      match last.phase with
      | .ended outcome => .over outcome
      | _ => .running
    (⟨events, state⟩, { stream with queue := last.queue })

/-- Up to `n` runs, one after another, and the stream after them.  A run that goes
on, or leaves ticks behind, is the last one. -/
def Ticker.runs (ticker : Ticker) (consumer : Consumer) :
    (n : Nat) → TickStream → List RunRecord × TickStream
  | 0, stream => ([], stream)
  | n + 1, stream =>
    let (record, stream) := ticker.run consumer stream
    match record.state with
    | .running => ([record], stream)
    | .over _ =>
      if stream.queue.isEmpty then
        let (records, stream) := ticker.runs consumer n stream
        (record :: records, stream)
      else ([record], stream)

/-- What was found after a ticker was finished: in its stream, and by a further
run. -/
structure Aftermath where
  received : Received
  run : Except TickerFault Unit

/-- What a consumer saw of a ticker: its runs, what was found after it was
finished, and whether its stream is closed. -/
structure Session where
  runs : List RunRecord
  aftermath? : Option Aftermath
  closed : Bool

/-- A session of `n` runs on a stream.  The ticker is finished afterwards, unless
its last run still goes on. -/
def Ticker.session (ticker : Ticker) (consumer : Consumer) (n : Nat) (finishFirst : Bool)
    (stream : TickStream) : Session :=
  let stream := if finishFirst then stream.close else stream
  let (records, stream) := ticker.runs consumer n stream
  match records.getLast? with
  | some ⟨_, .running⟩ => { runs := records, aftermath? := none, closed := stream.closed }
  | _ =>
    let (received, stream) := stream.close.receive
    let (again, stream) := ticker.run consumer stream
    { runs := records
      aftermath? :=
        match again.state with
        | .over outcome => some ⟨received, outcome⟩
        | .running => none
      closed := stream.closed }

end LoadShape.Workers
