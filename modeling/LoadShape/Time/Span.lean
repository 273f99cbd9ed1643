import LoadShape.Number.Word

/-!
# Spans of time

A span is a whole number of nanoseconds; its seconds fill a 64-bit counter.
Addition stops at the longest span and subtraction at zero.
-/

namespace LoadShape.Time

open LoadShape.Number

/-- The nanoseconds in one second. -/
def nanosPerSecond : Nat := 1000000000

/-- The first number of nanoseconds that is too long for a span. -/
def spanLimit : Nat := (wordMax + 1) * nanosPerSecond

/-- A length of time in nanoseconds. -/
structure Span where
  nanos : Nat
  nanos_lt : nanos < spanLimit
  deriving DecidableEq

namespace Span

@[ext]
theorem ext {s t : Span} (h : s.nanos = t.nanos) : s = t := by
  cases s
  cases t
  simpa using h

/-- The span of `n` nanoseconds, or the longest one. -/
def ofNanos (n : Nat) : Span where
  nanos := min n (spanLimit - 1)
  nanos_lt := by
    have : 0 < spanLimit := by decide
    omega

theorem nanos_ofNanos {n : Nat} (h : n < spanLimit) : (ofNanos n).nanos = n := by
  simp only [ofNanos]
  omega

/-- The span of no length. -/
def zero : Span where
  nanos := 0
  nanos_lt := by decide

/-- The span of `s` seconds. -/
def ofSeconds (s : UInt64) : Span where
  nanos := s.toNat * nanosPerSecond
  nanos_lt := Nat.mul_lt_mul_of_pos_right (Nat.lt_succ_of_le (toNat_le_wordMax s)) (by decide)

/-- The whole seconds of a span. -/
def seconds (s : Span) : Nat := s.nanos / nanosPerSecond

/-- The nanoseconds past the last whole second. -/
def subseconds (s : Span) : Nat := s.nanos % nanosPerSecond

theorem seconds_le (s : Span) : s.seconds ≤ wordMax :=
  Nat.le_of_lt_succ (Nat.div_lt_of_lt_mul (Nat.mul_comm _ _ ▸ s.nanos_lt))

theorem seconds_mul_add_subseconds (s : Span) :
    s.seconds * nanosPerSecond + s.subseconds = s.nanos := by
  unfold seconds subseconds
  rw [Nat.mul_comm]
  exact Nat.div_add_mod _ _

@[simp]
theorem seconds_ofSeconds (s : UInt64) : (ofSeconds s).seconds = s.toNat := by
  simp [seconds, ofSeconds, nanosPerSecond]

/-- The sum of two spans, or the longest span. -/
def add (s t : Span) : Span := ofNanos (s.nanos + t.nanos)

/-- What remains of `s` after `t`, or no time. -/
def sub (s t : Span) : Span where
  nanos := s.nanos - t.nanos
  nanos_lt := Nat.lt_of_le_of_lt (Nat.sub_le _ _) s.nanos_lt

instance : Add Span := ⟨add⟩

instance : Sub Span := ⟨sub⟩

instance : LE Span := ⟨fun s t => s.nanos ≤ t.nanos⟩

instance : LT Span := ⟨fun s t => s.nanos < t.nanos⟩

instance (s t : Span) : Decidable (s ≤ t) := inferInstanceAs (Decidable (s.nanos ≤ t.nanos))

instance (s t : Span) : Decidable (s < t) := inferInstanceAs (Decidable (s.nanos < t.nanos))

instance : Inhabited Span := ⟨zero⟩

theorem le_iff {s t : Span} : s ≤ t ↔ s.nanos ≤ t.nanos := Iff.rfl

theorem lt_iff {s t : Span} : s < t ↔ s.nanos < t.nanos := Iff.rfl

@[simp]
theorem nanos_sub (s t : Span) : (s - t).nanos = s.nanos - t.nanos := rfl

theorem nanos_add (s t : Span) :
    (s + t).nanos = min (s.nanos + t.nanos) (spanLimit - 1) := rfl

/-- A span of some length, or none. -/
def nonzero? (s : Span) : Option Span :=
  if s.nanos = 0 then none else some s

theorem nonzero?_ne_zero (s : Span) : s.nonzero? ≠ some zero := by
  unfold nonzero?
  split
  · exact nofun
  · next nonzero =>
      intro same
      cases same
      exact nonzero rfl

end Span

end LoadShape.Time
