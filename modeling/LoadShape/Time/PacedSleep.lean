import LoadShape.Time.Span

/-!
# Paced sleep

Waiting to a deadline: one sleep through most of the wait, which leaves the last
stretch, and then readings of the clock until one of them has reached the
deadline.  Every reading of the clock takes some time after it was read.
-/

namespace LoadShape.Time

/-- The last stretch of a wait, in nanoseconds: it is spent on the clock. -/
def spinStretch : Nat := 200000

/-- What the readings of a clock cost: reading number `i` moves it on by `cost i`
nanoseconds. -/
structure ReadingCost where
  cost : Nat → Nat
  cost_pos : ∀ i, 0 < cost i

/-- Every reading costs the same. -/
def ReadingCost.constant (tick : Nat) (h : 0 < tick) : ReadingCost :=
  ⟨fun _ => tick, fun _ => h⟩

/-- The first reading from number `i` on that has reached the deadline: its number
and what it returns. -/
def firstReading (c : ReadingCost) (deadline i now : Nat) : Nat × Nat :=
  if deadline ≤ now then (i, now)
  else firstReading c deadline (i + 1) (now + c.cost i)
termination_by deadline - now
decreasing_by
  have := c.cost_pos i
  omega

/-- How a wait was spent: in one sleep, and on readings of the clock. -/
structure WaitRecord where
  /-- The length of the one sleep. -/
  slept : Nat
  /-- How many readings were taken; the first one sets the deadline. -/
  readings : Nat
  /-- What the last reading returned. -/
  lastReading : Nat
  /-- The instant at which the wait was over. -/
  finished : Nat
  deriving DecidableEq, Repr

/-- Wait for `wait` nanoseconds from the instant `now` on; no wait needs no
reading. -/
def pacedSleep (c : ReadingCost) (now wait : Nat) : WaitRecord :=
  if wait = 0 then { slept := 0, readings := 0, lastReading := now, finished := now }
  else
    let slept := wait - spinStretch
    let (last, reading) := firstReading c (now + wait) 1 (now + c.cost 0 + slept)
    { slept, readings := last + 1, lastReading := reading, finished := reading + c.cost last }

/-- A wait never ends before its deadline. -/
theorem le_firstReading (c : ReadingCost) (deadline i now : Nat) :
    deadline ≤ (firstReading c deadline i now).2 := by
  fun_induction firstReading c deadline i now with
  | case1 i now h => exact h
  | case2 i now h ih => exact ih

end LoadShape.Time
