import LoadShape.Proofs.Pacing.ConstantRun

/-!
# Early hits of a constant rate

The interval between two hits is a whole number of nanoseconds, and what is left over of a
second is left out.  A worker that follows a constant pacer from the beginning sends each hit
earlier than at the frequency by all that was left out before it, so that some hit is early
unless the frequency divides a second into whole nanoseconds.
-/

namespace LoadShape.Pacing

open LoadShape.Number LoadShape.Time

/-- No time has passed and nothing is sent. -/
def Progress.begin : Progress := ⟨.zero, 0⟩

/-- The instant at which a worker that follows the pacer from the beginning sends hit number
`n`, counted from zero, unless it is told to stop before. -/
def Pacer.sentAt? (p : Pacer) (n : Nat) : Option Span :=
  let run := (Pacer.run (n + 1) p .begin).value
  if .stop ∈ run.paces then none else some run.progress.elapsed

namespace ConstantPacer

/-- The instant at which hit number `n` is due at the frequency, in whole nanoseconds. -/
def nominalNanos (p : ConstantPacer) (n : Nat) : Nat := (n + 1) * nanosPerSecond / p.rate.toNat

/-- The nanoseconds of a second that its intervals leave out. -/
def leftOver (p : ConstantPacer) : Nat := nanosPerSecond % p.rate.toNat

/-- What the intervals up to hit number `n` have left out. -/
def early (p : ConstantPacer) (n : Nat) : Nat := (n + 1) * p.leftOver / p.rate.toNat

variable {p : ConstantPacer}

/-- The frequency counts whole intervals and what they leave out. -/
theorem nominalNanos_eq (limited : p.rate ≠ 0) (n : Nat) :
    p.nominalNanos n = (n + 1) * p.interval + p.early n := by
  have second : nanosPerSecond = p.rate.toNat * p.interval + p.leftOver :=
    (Nat.div_add_mod _ _).symm
  have seconds : (n + 1) * nanosPerSecond =
      p.rate.toNat * ((n + 1) * p.interval) + (n + 1) * p.leftOver := by
    conv_lhs => rw [second]
    ring
  rw [nominalNanos, seconds, Nat.mul_add_div (toNat_pos limited), early]

/-- A second of hits is early by all that a second leaves out. -/
theorem early_second (limited : p.rate ≠ 0) : p.early (p.rate.toNat - 1) = p.leftOver := by
  have positive := toNat_pos limited
  rw [early, Nat.sub_add_cancel positive, Nat.mul_div_cancel_left _ positive]

/-! ## From the beginning -/

theorem elapsedAfter_begin (k : Nat) : p.elapsedAfter .begin k = k * p.interval := by
  have nothing : Progress.begin.elapsed.nanos = 0 := rfl
  have none_sent : Progress.begin.hits.toNat = 0 := rfl
  cases k with
  | zero => rw [elapsedAfter_zero, nothing, Nat.zero_mul]
  | succ k => rw [elapsedAfter_succ, nothing, none_sent, Nat.zero_max, Nat.zero_add]

/-- No hit is owed to a worker that has waited for all of its hits. -/
theorem owed_le (k : Nat) : p.rate.toNat * (k * p.interval / nanosPerSecond) ≤ k := by
  have second : p.rate.toNat * p.interval ≤ nanosPerSecond := Nat.mul_div_le _ _
  refine Nat.le_of_mul_le_mul_right ?_ (show 0 < nanosPerSecond by decide)
  calc p.rate.toNat * (k * p.interval / nanosPerSecond) * nanosPerSecond
      = p.rate.toNat * (k * p.interval / nanosPerSecond * nanosPerSecond) := Nat.mul_assoc _ _ _
    _ ≤ p.rate.toNat * (k * p.interval) := Nat.mul_le_mul_left _ (Nat.div_mul_le_self _ _)
    _ = k * (p.rate.toNat * p.interval) := Nat.mul_left_comm _ _ _
    _ ≤ k * nanosPerSecond := Nat.mul_le_mul_left _ second

theorem exhaustedAfter_begin_iff (k : Nat) :
    p.ExhaustedAfter .begin k ↔ scheduleEnd / p.interval < k := by
  have none_sent : Progress.begin.hits.toNat + k = k := Nat.zero_add k
  rw [ExhaustedAfter, elapsedAfter_begin, none_sent]
  exact and_iff_left (Nat.le_trans (Nat.min_le_left _ _) (owed_le k))

/-- Every hit within the range of schedules is sent at its multiple of the interval, and no
other. -/
theorem sentAt?_eq (uncapped : p.cap = 0) (limited : p.rate ≠ 0)
    (slow : p.rate.toNat ≤ nanosPerSecond) (n : Nat) :
    (Pacer.constant p).sentAt? n =
      if n ≤ scheduleEnd / p.interval then some (.ofNanos ((n + 1) * p.interval)) else none := by
  have exhausted : p.ExhaustedAfter .begin (scheduleEnd / p.interval + 1) :=
    (exhaustedAfter_begin_iff _).mpr (Nat.lt_succ_self _)
  have goesOn : ∀ k < scheduleEnd / p.interval + 1, ¬ p.ExhaustedAfter .begin k := by
    intro k below
    rw [exhaustedAfter_begin_iff]
    exact Nat.not_lt.mpr (Nat.le_of_lt_succ below)
  obtain ⟨paces, elapsed, -⟩ := run_until_exhausted uncapped limited slow exhausted goesOn (n + 1)
  rw [Pacer.sentAt?, paces]
  by_cases inRange : n ≤ scheduleEnd / p.interval
  · have all_sent : min (n + 1) (scheduleEnd / p.interval + 1) = n + 1 :=
      Nat.min_eq_left (Nat.succ_le_succ inRange)
    rw [all_sent, elapsedAfter_begin] at elapsed
    have due := due_lt_of_inRange inRange
    rw [if_pos inRange, if_neg (Nat.not_lt.mpr (Nat.succ_le_succ inRange)), if_neg (by simp)]
    exact congrArg some (Span.ext (elapsed.trans (Span.nanos_ofNanos due).symm))
  · rw [if_neg inRange, if_pos (Nat.succ_lt_succ (Nat.not_le.mp inRange)), if_pos (by simp)]

/-- The hits of the first second are within the range of schedules. -/
theorem second_inRange (limited : p.rate ≠ 0) (slow : p.rate.toNat ≤ nanosPerSecond) :
    p.rate.toNat - 1 ≤ scheduleEnd / p.interval := by
  have seconds : nanosPerSecond ≤ scheduleEnd / nanosPerSecond := by decide
  have intervals : scheduleEnd / nanosPerSecond ≤ scheduleEnd / p.interval :=
    Nat.div_le_div_left (Nat.div_le_self _ _) (interval_pos limited slow)
  omega

/-- A hit that is sent comes as much before its time as the intervals up to it leave out. -/
theorem sentAt?_add_early (uncapped : p.cap = 0) (limited : p.rate ≠ 0)
    (slow : p.rate.toNat ≤ nanosPerSecond) {n : Nat} {instant : Span}
    (sent : (Pacer.constant p).sentAt? n = some instant) :
    instant.nanos + p.early n = p.nominalNanos n := by
  rw [sentAt?_eq uncapped limited slow] at sent
  by_cases inRange : n ≤ scheduleEnd / p.interval
  · rw [if_pos inRange, Option.some.injEq] at sent
    rw [← sent, Span.nanos_ofNanos (due_lt_of_inRange inRange), nominalNanos_eq limited]
  · rw [if_neg inRange] at sent
    cases sent

/-- The last hit of the first second comes before its end, by all that a second leaves out. -/
theorem exists_sentAt?_second (uncapped : p.cap = 0) (limited : p.rate ≠ 0)
    (slow : p.rate.toNat ≤ nanosPerSecond) :
    ∃ instant, (Pacer.constant p).sentAt? (p.rate.toNat - 1) = some instant ∧
      instant.nanos + p.leftOver = nanosPerSecond := by
  have sent := sentAt?_eq uncapped limited slow (p.rate.toNat - 1)
  rw [if_pos (second_inRange limited slow)] at sent
  refine ⟨_, sent, ?_⟩
  have positive := toNat_pos limited
  have due : p.nominalNanos (p.rate.toNat - 1) = nanosPerSecond := by
    rw [nominalNanos, Nat.sub_add_cancel positive, Nat.mul_div_cancel_left _ positive]
  rw [← early_second limited, ← due]
  exact sentAt?_add_early uncapped limited slow sent

end ConstantPacer

namespace Pacer

/-- A worker that follows a constant pacer from the beginning sends hit number `n` after `n + 1`
intervals, as long as that is within the range of schedules.  Each hit comes before its time at
the frequency by what the intervals up to it leave out, and so no hit comes early exactly if the
frequency divides a second into whole nanoseconds; if it does not, then the last hit of the
first second is early. -/
theorem never_early_iff (p : ConstantPacer) (uncapped : p.cap = 0) (limited : p.rate ≠ 0)
    (slow : p.rate.toNat ≤ nanosPerSecond) :
    (∀ n, (constant p).sentAt? n =
        if n ≤ scheduleEnd / p.interval then some (.ofNanos ((n + 1) * p.interval)) else none) ∧
      (∀ n instant, (constant p).sentAt? n = some instant →
        instant.nanos + p.early n = p.nominalNanos n) ∧
      (∃ instant, (constant p).sentAt? (p.rate.toNat - 1) = some instant ∧
        instant.nanos + p.leftOver = nanosPerSecond) ∧
      ((∀ n instant, (constant p).sentAt? n = some instant →
          p.nominalNanos n ≤ instant.nanos) ↔
        p.rate.toNat ∣ nanosPerSecond) := by
  have second := ConstantPacer.exists_sentAt?_second uncapped limited slow
  refine ⟨ConstantPacer.sentAt?_eq uncapped limited slow,
    fun n instant => ConstantPacer.sentAt?_add_early uncapped limited slow, second, ?_⟩
  constructor
  · intro in_time
    obtain ⟨instant, sent, before⟩ := second
    have late := in_time _ instant sent
    have ahead := ConstantPacer.sentAt?_add_early uncapped limited slow sent
    rw [ConstantPacer.early_second limited] at ahead
    have none_left : p.leftOver = 0 := by omega
    exact Nat.dvd_of_mod_eq_zero none_left
  · intro divides n instant sent
    have none_left : p.leftOver = 0 := Nat.mod_eq_zero_of_dvd divides
    have ahead := ConstantPacer.sentAt?_add_early uncapped limited slow sent
    rw [ConstantPacer.early, none_left, Nat.mul_zero, Nat.zero_div, Nat.add_zero] at ahead
    exact Nat.le_of_eq ahead.symm

/-- Six hundred million hits a second leave an interval of one nanosecond, so that they are sent
as if they were a thousand million: the last one of the first second after six tenths of it. -/
theorem never_early_iff_six_tenths :
    let p : ConstantPacer := { rate := 600000000 }
    (constant p).sentAt? 599999999 = some (.ofNanos 600000000) ∧
      p.nominalNanos 599999999 = nanosPerSecond ∧ p.leftOver = 400000000 ∧
      ¬ ∀ n instant, (constant p).sentAt? n = some instant → p.nominalNanos n ≤ instant.nanos := by
  intro p
  obtain ⟨sends, -, -, exact_iff⟩ := never_early_iff p rfl (by decide) (by decide)
  refine ⟨(sends 599999999).trans (by decide), by decide, by decide, fun in_time => ?_⟩
  exact absurd (exact_iff.mp in_time) (by decide)

/-- The third of three hits a second is sent a nanosecond before the second is over. -/
theorem third_hit_early :
    let p : ConstantPacer := { rate := 3 }
    (constant p).sentAt? 2 = some (.ofNanos 999999999) ∧ p.nominalNanos 2 = 1000000000 := by
  decide +kernel

end Pacer

end LoadShape.Pacing
