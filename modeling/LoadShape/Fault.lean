import LoadShape.Report

/-!
# Faults

Why a pacer, a ticker or a profile could not be made or used.  A fault is a cause;
its wording is in one function.
-/

namespace LoadShape

/-- What a schedule shapes over time. -/
inductive Subject where
  | load
  | concurrency
  deriving DecidableEq, Repr

/-- The word for a subject. -/
def Subject.word : Subject → String
  | .load => "load"
  | .concurrency => "concurrency"

/-- Parameters that describe no pacer, no ticker or no schedule. -/
inductive Rejection where
  | stepPacerPeriodZero
  | stepPacerStepZero
  | stepPacerStartZero
  | linearPacerStartZero
  | linearPacerSlopeZero
  | stepTickerStepZero
  | stepTickerPeriodZero
  | lineTickerSlopeZero
  /-- A ramp that ends where it starts. -/
  | equalEnds (subject : Subject)
  /-- A ramp that never changes. -/
  | zeroStep (subject : Subject)
  /-- A ramp whose steps take no time. -/
  | zeroPeriod (subject : Subject)
  | noWorkers
  deriving DecidableEq, Repr

/-- The wording of a rejection. -/
def Rejection.text : Rejection → String
  | .stepPacerPeriodZero => "StepPacer step duration cannot be 0"
  | .stepPacerStepZero => "StepPacer step cannot be 0"
  | .stepPacerStartZero => "StepPacer start rate cannot be 0"
  | .linearPacerStartZero => "LinearPacer start rate cannot be 0"
  | .linearPacerSlopeZero => "LinearPacer slope cannot be 0"
  | .stepTickerStepZero => "StepWorkerTicker step cannot be 0"
  | .stepTickerPeriodZero => "StepWorkerTicker step duration cannot be 0"
  | .lineTickerSlopeZero => "LineWorkerTicker slope cannot be 0"
  | .equalEnds subject => subject.word ++ " start cannot equal " ++ subject.word ++ " end"
  | .zeroStep subject => "invalid " ++ subject.word ++ " step"
  | .zeroPeriod subject => "invalid " ++ subject.word ++ " step duration"
  | .noWorkers => "concurrency workers must be > 0"

/-- Why a ticker could not run, or not to its end. -/
inductive TickerFault where
  /-- The stream was closed before the run. -/
  | finished
  /-- The worker count left the range of signed 64-bit numbers. -/
  | countOverflow
  /-- A tick would be due beyond the end of the clock. -/
  | clockOverflow
  /-- The distance to the target left the range of signed 64-bit numbers. -/
  | differenceOverflow
  /-- The number of workers has no negative among signed 64-bit numbers. -/
  | negationOverflow
  /-- Nobody holds a receiver of the stream. -/
  | disconnected
  /-- The timer gave no further tick. -/
  | timerStopped
  /-- The thread ended without a report. -/
  | exitedEarly
  /-- The system did not start a thread, for a reason of its own. -/
  | notStarted (error : String)
  deriving DecidableEq, Repr

/-- The wording of a ticker fault. -/
def TickerFault.text : TickerFault → String
  | .finished => "tick stream already finished"
  | .countOverflow => "worker ticker thread panicked: attempt to add with overflow"
  | .clockOverflow =>
    "worker ticker thread panicked: overflow when adding duration to instant"
  | .differenceOverflow => "worker ticker thread panicked: attempt to subtract with overflow"
  | .negationOverflow => "worker ticker thread panicked: attempt to negate with overflow"
  | .disconnected => "tick stream disconnected"
  | .timerStopped => "step timer stopped unexpectedly"
  | .exitedEarly => "worker ticker thread exited early"
  | .notStarted error => error

/-- The category of a ticker fault: a thread that was not started is a failure of the system. -/
def TickerFault.category : TickerFault → Category
  | .notStarted _ => .inputOutput
  | _ => .ticker

/-- The report of a rejection. -/
def Rejection.report (r : Rejection) : Report := ⟨.configuration, r.text⟩

/-- The report of a ticker fault. -/
def TickerFault.report (f : TickerFault) : Report := ⟨f.category, f.text⟩

end LoadShape
