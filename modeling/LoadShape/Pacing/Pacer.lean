import LoadShape.Pacing.LinearPacer

/-!
# Pacers

A pacer of any kind, and the loop of a worker that follows it: ask, wait for as
long as the answer says, send a hit, ask again.
-/

namespace LoadShape.Pacing

open LoadShape.Number LoadShape.Time

/-- A pacer of any kind. -/
inductive Pacer where
  | constant (pacer : ConstantPacer)
  | step (pacer : StepPacer)
  | linear (pacer : LinearPacer)
  deriving DecidableEq

namespace Pacer

/-- The answer with the pacer seen as one of any kind. -/
def lift {pacer value : Type} (kind : pacer → Pacer) (a : Answer pacer value) :
    Answer Pacer value :=
  { value := a.value, warnings := a.warnings, pacer := kind a.pacer }

/-- What to do before the next hit. -/
def pace (p : Pacer) (elapsed : Span) (hits : UInt64) : Answer Pacer Pace :=
  match p with
  | .constant c => { value := c.pace elapsed hits, pacer := p }
  | .step s => lift .step (s.pace elapsed hits)
  | .linear l => lift .linear (l.pace elapsed hits)

/-- The target rate at `elapsed`. -/
def rate (p : Pacer) (elapsed : Span) : Answer Pacer Rat :=
  match p with
  | .constant c => { value := c.rateValue, pacer := p }
  | .step s => lift .step (s.rate elapsed)
  | .linear l => lift .linear (l.rate elapsed)

/-- The plan of the constant phase; a constant pacer has none. -/
def plan? (p : Pacer) : Answer Pacer (Option Plan) :=
  match p with
  | .constant _ => { value := none, pacer := p }
  | .step s =>
    let r := s.ready
    lift .step { r with value := some r.value }
  | .linear l =>
    let r := l.ready
    lift .linear { r with value := some r.value }

/-- The pacer as it is shown. -/
def display : Pacer → String
  | .constant c => c.display
  | .step s => s.display
  | .linear l => l.display

/-- Cap the number of hits, zero for no cap. -/
def withCap (p : Pacer) (cap : UInt64) : Pacer :=
  match p with
  | .constant c => .constant { c with cap }
  | .step s => .step (s.withCap cap)
  | .linear l => .linear (l.withCap cap)

/-- Hold the given pacer's rate once the ramp is past it. -/
def withHold (p : Pacer) (hold : ConstantPacer) : Pacer :=
  match p with
  | .constant c => .constant c
  | .step s => .step (s.withHold hold)
  | .linear l => .linear (l.withHold hold)

/-- Ramp for the given time, then hold the rate; no time is no condition. -/
def withLoadDuration (p : Pacer) (duration : Span) : Pacer :=
  match p with
  | .constant c => .constant c
  | .step s => .step (s.withLoadDuration duration)
  | .linear l => .linear (l.withLoadDuration duration)

end Pacer

/-- How far a worker has come: the time since the run began and the hits sent. -/
structure Progress where
  elapsed : Span
  hits : UInt64
  deriving DecidableEq

/-- The progress after a wait and one more hit. -/
def Progress.after (s : Progress) (wait : Span) : Progress :=
  ⟨s.elapsed + wait, next s.hits⟩

/-- What a worker was told in turn, and how far it came. -/
structure PacedRun where
  paces : List Pace
  progress : Progress
  deriving DecidableEq

/-- A worker that asks at most `n` times and ends with the first stop. -/
def Pacer.run : (n : Nat) → Pacer → Progress → Answer Pacer PacedRun
  | 0, p, s => { value := ⟨[], s⟩, pacer := p }
  | n + 1, p, s =>
    let asked := p.pace s.elapsed s.hits
    match asked.value with
    | .stop => { asked with value := ⟨[.stop], s⟩ }
    | .after wait =>
      let later := Pacer.run n asked.pacer (s.after wait)
      { value := ⟨.after wait :: later.value.paces, later.value.progress⟩
        warnings := asked.warnings ++ later.warnings
        pacer := later.pacer }

end LoadShape.Pacing
