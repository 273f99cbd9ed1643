import LoadShape.Workers.Handover
import LoadShape.Workers.Ramp

/-!
# A run as two threads

The run of a ramp is a call.  The caller hands over the first tick itself and asks the system for
a thread for the others; it waits for the report of that thread, and then for the thread to end.
The thread asks a timer, sleeps until the timer's next tick, works out its own tick, hands it over,
and adds it to the workers that it counts in signed 64-bit numbers.

The system may refuse the thread.  Then the call returns the error of the system, and the first
tick is all that it has produced.

Around the two, time passes, consumers take ticks and come and go, and other producers use the
same stream.  Everything happens in any order.
-/

namespace LoadShape.Workers

open LoadShape.Time

/-! ## Checked arithmetic -/

/-- Why a thread gives up in the middle of a computation. -/
inductive Panic where
  | addition
  | subtraction
  | negation
  /-- The tick after the next one would be due beyond the end of the clock. -/
  | instant
  deriving DecidableEq, Repr

/-- What becomes of a call whose thread has panicked. -/
def Panic.fault : Panic → TickerFault
  | .addition => .countOverflow
  | .subtraction => .differenceOverflow
  | .negation => .negationOverflow
  | .instant => .clockOverflow

/-- The number is a signed 64-bit number. -/
def IsCount (n : Int) : Prop := countMin ≤ n ∧ n ≤ countMax

instance (n : Int) : Decidable (IsCount n) := inferInstanceAs (Decidable (_ ∧ _))

/-- The result of an operation, or a panic if it is no signed 64-bit number. -/
def checked (panic : Panic) (n : Int) : Except Panic Int :=
  if IsCount n then .ok n else .error panic

theorem checked_of_isCount {n : Int} (counted : IsCount n) (panic : Panic) :
    checked panic n = .ok n := if_pos counted

theorem checked_of_not_isCount {n : Int} (beyond : ¬ IsCount n) (panic : Panic) :
    checked panic n = .error panic := if_neg beyond

namespace WorkerRamp

/-- The last change when the budget is spent, with a checked subtraction. -/
def correctionChecked (r : WorkerRamp) (workers : Int) : Except Panic Int :=
  if r.shortOf workers then checked .subtraction (r.target.toNat - workers) else .ok 0

/-- The next step, with a checked negation. -/
def stepChecked (r : WorkerRamp) (workers : Int) : Except Panic Tick :=
  if !r.rising && workers ≤ 0 then .ok ⟨0, true⟩
  else (checked .negation (-workers)).map fun least => ⟨max r.step.toInt least, false⟩

/-- The change that is due `elapsed` nanoseconds after the ramp began, in checked arithmetic. -/
def tickChecked (r : WorkerRamp) (workers : Int) (elapsed : Nat) : Except Panic Tick :=
  match r.budget? with
  | some budget =>
    if budget.nanos ≤ elapsed then (r.correctionChecked workers).map fun delta => ⟨delta, true⟩
    else r.stepChecked workers
  | none => if r.reached workers then .ok ⟨0, true⟩ else r.stepChecked workers

/-- All workers to begin with. -/
def firstTick (r : WorkerRamp) : Tick := ⟨r.start.toNat, false⟩

end WorkerRamp

/-! ## The parties -/

/-- A timer: at which instants it is found to be cut off when it is asked for a tick. -/
structure Timer where
  cutOff : (instant : Nat) → Bool

/-- A timer that is never cut off. -/
def Timer.endless : Timer := ⟨fun _ => false⟩

/-- What a call relies on: a timer, and the system that starts its thread. -/
structure Host where
  timer : Timer
  /-- The error with which the system refuses to start a thread at an instant. -/
  refusal? : (instant : Nat) → Option String

/-- An endless timer, and a system that starts every thread. -/
def Host.reliable : Host := ⟨.endless, fun _ => none⟩

/-- Who holds a receiver of the stream. -/
inductive Holder where
  /-- The ticker, which is borrowed until the call returns. -/
  | ticker
  | consumer
  deriving DecidableEq, Repr

/-- What the thread of a call is doing. -/
inductive Thread where
  | unstarted
  /-- It asks the timer, whose next tick is due at `due`; there are `workers`. -/
  | asking (due : Nat) (workers : Int)
  /-- It sleeps until `wake`. -/
  | asleep (wake : Nat) (workers : Int)
  /-- It hands a tick over; the timer's next tick is due at `due`, and without the tick there
  are `workers`. -/
  | sending (tick : Tick) (due : Nat) (workers : Int)
  /-- Its loop is over, and it reports how. -/
  | reporting (outcome : Except TickerFault Unit)
  /-- It has reported. -/
  | leaving
  | finished
  | panicked (panic : Panic)

/-- What a thread does after it has handed a tick over.  The addition is part of the handover,
since nobody sees the thread between the two; the tick is gone even if the addition panics. -/
def Thread.afterSending (tick : Tick) (due : Nat) (workers : Int) : Thread :=
  if tick.done then .reporting (.ok ())
  else
    match checked .addition (workers + tick.delta) with
    | .ok count => .asking due count
    | .error panic => .panicked panic

/-- What the caller is doing. -/
inductive Caller where
  /-- It hands over the first tick. -/
  | greeting
  /-- It asks the system for the thread. -/
  | starting
  /-- It waits for the report of the thread. -/
  | waiting
  /-- It has the report, or knows that there is none, and waits for the thread to end. -/
  | joining (report? : Option (Except TickerFault Unit))
  | returned (outcome : Except TickerFault Unit)

/-- A call in progress: the time since it began, the stream and who can receive from it, the two
threads and the report between them, and the ticks that the call has handed over so far. -/
structure Call where
  clock : Nat := 0
  stream : TickStream
  holders : List Holder
  caller : Caller
  thread : Thread := .unstarted
  report? : Option (Except TickerFault Unit) := none
  handedOver : List Tick := []

/-- What can happen next. -/
inductive Move where
  /-- Time passes. -/
  | pass (nanos : Nat)
  /-- A consumer takes a tick. -/
  | take
  /-- Another producer puts a tick into the stream. -/
  | put (tick : Tick)
  | close
  /-- A receiver is handed out. -/
  | share
  /-- A consumer lets its receiver go. -/
  | letGo
  | caller
  | thread
  deriving DecidableEq, Repr

namespace Call

/-- The beginning of a call on a stream, with as many receivers handed out. -/
def begin (stream : TickStream) (receivers : Nat) : Call where
  stream
  holders := .ticker :: List.replicate receivers .consumer
  caller := if stream.closed then .returned (.error .finished) else .greeting

/-- The tick that the call hands over, if there is one, and the call when that is done. -/
def handOver? (r : WorkerRamp) (c : Call) : Option (Tick × Call) :=
  match c.caller, c.thread with
  | .greeting, _ =>
    some (r.firstTick, { c with
      caller := .starting
      handedOver := c.handedOver ++ [r.firstTick] })
  | _, .sending tick due workers =>
    some (tick, { c with
      thread := .afterSending tick due workers
      handedOver := c.handedOver ++ [tick] })
  | _, _ => none

/-- The ticks that the call has produced: those that it has handed over, and the one that waits
to be. -/
def produced (r : WorkerRamp) (c : Call) : List Tick :=
  c.handedOver ++ ((c.handOver? r).map (·.1)).toList

/-- The call hands its tick over to the stream, if there is room. -/
def send? (r : WorkerRamp) (c : Call) : Option Call :=
  if c.stream.hasRoom then
    (c.handOver? r).map fun (tick, after) => { after with stream := c.stream.put tick }
  else none

/-- A consumer takes a tick from the stream, or else from the hand of the call. -/
def take? (r : WorkerRamp) (c : Call) : Option Call :=
  match c.stream.queue with
  | _ :: rest => some { c with stream := { c.stream with queue := rest } }
  | [] => (c.handOver? r).map (·.2)

/-- One move of the caller, unless it has to wait.  The timer has been running since the call
began. -/
def callerMove? (r : WorkerRamp) (host : Host) (c : Call) : Option Call :=
  match c.caller with
  | .greeting =>
    if c.holders.isEmpty then some { c with caller := .returned (.error .disconnected) }
    else c.send? r
  | .starting =>
    match host.refusal? c.clock with
    | some error => some { c with caller := .returned (.error (.notStarted error)) }
    | none =>
      some { c with caller := .waiting, thread := .asking r.period.nanos r.start.toNat }
  | .waiting =>
    match c.report? with
    | some outcome => some { c with caller := .joining (some outcome), report? := none }
    | none =>
      match c.thread with
      | .finished | .panicked _ => some { c with caller := .joining none }
      | _ => none
  | .joining report? =>
    match c.thread with
    | .finished => some { c with caller := .returned (report?.getD (.error .exitedEarly)) }
    | .panicked panic => some { c with caller := .returned (.error panic.fault) }
    | _ => none
  | .returned _ => none

/-- One move of the thread, unless it has to wait.  The time for the tick after next must be on
the clock before it sleeps until the next one. -/
def threadMove? (r : WorkerRamp) (timer : Timer) (c : Call) : Option Call :=
  match c.thread with
  | .asking due workers =>
    let wake := max due c.clock
    if timer.cutOff c.clock then some { c with thread := .reporting (.error .timerStopped) }
    else if clockEnd ≤ wake + r.period.nanos then some { c with thread := .panicked .instant }
    else some { c with thread := .asleep wake workers }
  | .asleep wake workers =>
    if wake ≤ c.clock then
      match r.tickChecked workers c.clock with
      | .ok tick => some { c with thread := .sending tick (wake + r.period.nanos) workers }
      | .error panic => some { c with thread := .panicked panic }
    else none
  | .sending _ _ _ =>
    if c.holders.isEmpty then some { c with thread := .reporting (.error .disconnected) }
    else c.send? r
  | .reporting outcome => some { c with report? := some outcome, thread := .leaving }
  | .leaving => some { c with thread := .finished }
  | .unstarted | .finished | .panicked _ => none

/-- The call after a move, if it is possible. -/
def move? (r : WorkerRamp) (host : Host) (c : Call) : Move → Option Call
  | .pass nanos => some { c with clock := c.clock + nanos }
  | .take => c.take? r
  | .put tick => if c.stream.hasRoom then some { c with stream := c.stream.put tick } else none
  | .close => some { c with stream := c.stream.close }
  | .share => some { c with holders := .consumer :: c.holders }
  | .letGo => some { c with holders := c.holders.erase .consumer }
  | .caller => c.callerMove? r host
  | .thread => c.threadMove? r host.timer

/-- The call after some moves, if they are possible in this order. -/
def perform (r : WorkerRamp) (host : Host) (c : Call) : List Move → Option Call
  | [] => some c
  | move :: moves => (c.move? r host move).bind fun next => next.perform r host moves

end Call

end LoadShape.Workers
