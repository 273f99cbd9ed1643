import LoadShape.Time.PacedSleep

/-!
# A wait and its clock

A wait asks its clock for one thing after another: a reading that sets the deadline, one sleep if
the wait is long, and readings until one of them has reached the deadline.  Nothing but the clock
brings it to its end.
-/

namespace LoadShape.Time

/-- A clock: the last instant that it can show, and how far each of its readings moves it.  It may
also stand still. -/
structure Clock where
  last : Nat
  cost : Nat → Nat

/-- The clock moves on with every reading. -/
def Clock.Advances (clock : Clock) : Prop := ∀ i, 0 < clock.cost i

/-- What a wait asks of its clock. -/
inductive ClockRequest where
  /-- A reading, which returned `instant`. -/
  | reading (instant : Nat)
  | sleep (length : Nat)
  deriving DecidableEq, Repr

/-- What a wait does next. -/
inductive WaitStage where
  /-- It reads the clock for its deadline. -/
  | called
  /-- It sleeps if it is long. -/
  | resting (deadline : Nat)
  /-- It reads the clock once more. -/
  | watching (deadline : Nat)
  | over
  /-- It has panicked, since the clock cannot show its deadline. -/
  | overflowed
  deriving DecidableEq, Repr

/-- A wait in progress: its length, the instant, how many readings it has taken, all that it has
asked of the clock, and what it does next. -/
structure Wait where
  length : Nat
  now : Nat
  taken : Nat := 0
  requests : List ClockRequest := []
  stage : WaitStage := .called
  deriving DecidableEq, Repr

namespace Wait

/-- The wait of the given length from the instant `now` on. -/
def begin (now length : Nat) : Wait := { length, now }

/-- A reading of the clock, which moves on after it was read. -/
def read (clock : Clock) (w : Wait) (next : WaitStage) : Wait :=
  { w with
    now := w.now + clock.cost w.taken
    taken := w.taken + 1
    requests := w.requests ++ [.reading w.now]
    stage := next }

/-- A sleep, which moves the clock by its length. -/
def sleep (w : Wait) (length : Nat) (next : WaitStage) : Wait :=
  { w with
    now := w.now + length
    requests := w.requests ++ [.sleep length]
    stage := next }

/-- The next step of a wait that is not over. -/
def step? (clock : Clock) (w : Wait) : Option Wait :=
  match w.stage with
  | .called =>
    if w.length = 0 then some { w with stage := .over }
    else
      let deadline := w.now + w.length
      some (w.read clock (if deadline ≤ clock.last then .resting deadline else .overflowed))
  | .resting deadline =>
    if spinStretch < w.length then
      some (w.sleep (w.length - spinStretch) (.watching deadline))
    else some { w with stage := .watching deadline }
  | .watching deadline =>
    some (w.read clock (if w.now < deadline then .watching deadline else .over))
  | .over | .overflowed => none

/-- The wait goes on for some steps, and what is left at the end is `finish`. -/
inductive Ends (clock : Clock) : Wait → Wait → Prop
  | ended {w : Wait} (done : w.step? clock = none) : Ends clock w w
  | step {w next finish : Wait} (goesOn : w.step? clock = some next)
      (ends : Ends clock next finish) : Ends clock w finish

theorem ends_iff_of_step {clock : Clock} {w next finish : Wait}
    (goesOn : w.step? clock = some next) : w.Ends clock finish ↔ next.Ends clock finish := by
  constructor
  · intro ends
    cases ends with
    | ended done => cases done.symm.trans goesOn
    | step goesOn_same ends =>
        cases goesOn.symm.trans goesOn_same
        exact ends
  · exact Ends.step goesOn

/-- A wait ends in one way only. -/
theorem Ends.unique {clock : Clock} {w finish other : Wait} (ends : w.Ends clock finish)
    (ends_other : w.Ends clock other) : finish = other := by
  induction ends with
  | ended done =>
      cases ends_other with
      | ended _ => rfl
      | step goesOn _ => cases done.symm.trans goesOn
  | step goesOn _ ih => exact ih ((ends_iff_of_step goesOn).mp ends_other)

end Wait

end LoadShape.Time
