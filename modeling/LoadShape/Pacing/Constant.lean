import LoadShape.Number.Rounding
import LoadShape.Number.Word
import LoadShape.Pacing.Pace
import LoadShape.Text.Numeral

/-!
# Pacing at a constant rate

Hits are due at the multiples of a whole number of nanoseconds.  A pacer that is
behind its rate by whole seconds asks for the next hit at once.
-/

namespace LoadShape.Pacing

open LoadShape.Number LoadShape.Time

/-- A constant rate in hits per second, zero for no limit, and a cap on the
number of hits, zero for none. -/
structure ConstantPacer where
  rate : UInt64 := 0
  cap : UInt64 := 0
  deriving DecidableEq

namespace ConstantPacer

/-- Whether `hits` reach a cap; a cap of zero is never reached. -/
def capped (cap hits : UInt64) : Bool := 0 < cap && cap ≤ hits

/-- The hits owed after the whole seconds of `elapsed`. -/
def owed (p : ConstantPacer) (elapsed : Span) : Nat :=
  min (p.rate.toNat * elapsed.seconds) wordMax

/-- The nanoseconds between two hits; none for more than a hit per nanosecond. -/
def interval (p : ConstantPacer) : Nat := nanosPerSecond / p.rate.toNat

/-- The instant at which the hit after the first `hits` is due. -/
def dueNanos (p : ConstantPacer) (hits : UInt64) : Nat :=
  (next hits).toNat * p.interval

/-- What to do before the next hit. -/
def pace (p : ConstantPacer) (elapsed : Span) (hits : UInt64) : Pace :=
  if capped p.cap hits then .stop
  else if p.rate = 0 then .now
  else if hits.toNat < p.owed elapsed then .now
  else if 0 < p.interval ∧ scheduleEnd / p.interval < hits.toNat then .stop
  else .after (.ofNanos (p.dueNanos hits) - elapsed)

/-- The target rate, the same at every instant. -/
def rateValue (p : ConstantPacer) : Rat := rounded p.rate.toNat

/-- The pacer as it is shown. -/
def display (p : ConstantPacer) : String :=
  "Constant\x7b" ++ Text.decimal p.rate.toNat ++ " hits / 1s\x7d"

theorem pace_of_capped {p : ConstantPacer} {hits : UInt64} (h : capped p.cap hits = true)
    (elapsed : Span) : p.pace elapsed hits = .stop := by
  simp [pace, h]

end ConstantPacer

end LoadShape.Pacing
