import LoadShape.Number.Word
import LoadShape.Time.Span
import LoadShape.Workers.TickStream

/-!
# Handing over ticks

A ticker and its consumer share a stream and a clock.  The ticker waits for the
time of its next tick, produces it, and waits until the stream takes it; whatever
comes late moves all later ticks.  The consumer lets some time pass before each
tick that it takes, and before that the ticker goes on for as long as it can.

Instants are nanoseconds since the run began.
-/

namespace LoadShape.Workers

open LoadShape.Number LoadShape.Time

/-- Where ticks come from: the first one, the time between two of them, and the
one that follows when there are `workers` after `elapsed` nanoseconds. -/
structure TickSource where
  first : Tick
  period : Nat
  following : (workers : Int) → (elapsed : Nat) → Tick

/-- The first instant that the clock cannot reach. -/
def clockEnd : Nat := (signedMax + 1) * nanosPerSecond

/-- The largest number of workers that can be counted. -/
def countMax : Int := signedMax

/-- The least number that can be counted. -/
def countMin : Int := signedMin

/-- What a ticker is doing. -/
inductive Phase where
  /-- It waits until its next tick is due; there are `workers`. -/
  | waiting (due : Nat) (workers : Int)
  /-- It hands a tick over; the one after it is not due before `due`, and without
  it there are `workers`. -/
  | offering (tick : Tick) (due : Nat) (workers : Int)
  /-- Its run is over. -/
  | ended (outcome : Except TickerFault Unit)

/-- What a ticker does after it has handed a tick over. -/
def Phase.afterHandover (tick : Tick) (due : Nat) (workers : Int) : Phase :=
  if tick.done then .ended (.ok ())
  else if countMax < workers + tick.delta then .ended (.error .countOverflow)
  else .waiting due (workers + tick.delta)

/-- How near a ticker is to a handover. -/
def Phase.rank : Phase → Nat
  | .waiting _ _ => 2
  | .offering _ _ _ => 1
  | .ended _ => 0

/-- A run in progress: the time, the ticks in the stream, and the ticker. -/
structure Run where
  clock : Nat
  queue : List Tick
  phase : Phase

namespace Run

/-- The beginning of a run: the first tick is handed over at once. -/
def initial (source : TickSource) (queue : List Tick) : Run where
  clock := 0
  queue
  phase := .offering source.first source.period 0

/-- One step of the ticker, if it can go on.  The time for the tick after next must
be on the clock before it waits for the next one. -/
def step? (source : TickSource) (capacity : Nat) (r : Run) : Option Run :=
  match r.phase with
  | .waiting due workers =>
    let now := max due r.clock
    if clockEnd ≤ now + source.period then
      some { r with phase := .ended (.error .clockOverflow) }
    else
      some { r with
        clock := now
        phase := .offering (source.following workers now) (now + source.period) workers }
  | .offering tick due workers =>
    if r.queue.length < capacity then
      some { r with
        queue := r.queue ++ [tick]
        phase := .afterHandover tick due workers }
    else none
  | .ended _ => none

/-- What the ticker can still do before it has to wait for the consumer. -/
def progress (capacity : Nat) (r : Run) : Nat :=
  3 * (capacity - r.queue.length) + r.phase.rank

theorem rank_afterHandover_le (tick : Tick) (due : Nat) (workers : Int) :
    (Phase.afterHandover tick due workers).rank ≤ 2 := by
  unfold Phase.afterHandover
  split
  · simp [Phase.rank]
  · split <;> simp [Phase.rank]

theorem progress_lt_of_step? {source : TickSource} {capacity : Nat} {r s : Run}
    (h : r.step? source capacity = some s) : s.progress capacity < r.progress capacity := by
  unfold step? at h
  split at h
  · rename_i due workers hphase
    dsimp only at h
    split at h <;> injection h with h <;> subst h <;> simp [progress, hphase, Phase.rank]
  · rename_i tick due workers hphase
    split at h
    · rename_i hroom
      injection h with h
      subst h
      have hrank := rank_afterHandover_le tick due workers
      have hone : r.phase.rank = 1 := by rw [hphase]; rfl
      simp only [progress, List.length_append, List.length_cons, List.length_nil, hone]
      omega
    · cases h
  · cases h

/-- The run after the ticker went on for as long as it can. -/
def settle (source : TickSource) (capacity : Nat) (r : Run) : Run :=
  match _h : r.step? source capacity with
  | some s => s.settle source capacity
  | none => r
termination_by r.progress capacity
decreasing_by exact progress_lt_of_step? _h

/-- The next tick for the consumer: from the stream, or else from the ticker's own
hand. -/
def take? (r : Run) : Option (Tick × Run) :=
  match r.queue with
  | tick :: rest => some (tick, { r with queue := rest })
  | [] =>
    match r.phase with
    | .offering tick due workers =>
      some (tick, { r with phase := .afterHandover tick due workers })
    | _ => none

/-- Time passes. -/
def delay (r : Run) (passed : Nat) : Run := { r with clock := r.clock + passed }

end Run

/-- A tick as its consumer saw it: when it was taken, and how many workers there
are with it, within the range that can be counted. -/
structure Event where
  tick : Tick
  takenAt : Nat
  workers : Int
  deriving DecidableEq, Repr

/-- The number of workers after a change, within the range that can be counted. -/
def countAfter (workers delta : Int) : Int :=
  max countMin (min countMax (workers + delta))

/-- The events of a consumer that takes at most `limit` ticks and none after the
last one, and the run when it is through.  The delays pass before the ticks in
turn; where none is given there is none. -/
def consume (source : TickSource) (capacity : Nat) :
    (limit : Nat) → (delays : List Nat) → (workers : Int) → Run → List Event × Run
  | 0, _, _, r => ([], r)
  | limit + 1, delays, workers, r =>
    match (r.delay (delays.headD 0)).take? with
    | none => ([], r)
    | some (tick, taken) =>
      let count := countAfter workers tick.delta
      let event : Event := ⟨tick, taken.clock, count⟩
      let settled := taken.settle source capacity
      if tick.done then ([event], settled)
      else
        let (events, last) := consume source capacity limit delays.tail count settled
        (event :: events, last)

end LoadShape.Workers
