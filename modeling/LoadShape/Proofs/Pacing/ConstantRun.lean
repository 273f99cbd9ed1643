import LoadShape.Pacing.Pacer
import LoadShape.Proofs.Pacing.OwedHits
import LoadShape.Proofs.Pacing.StopFinal

/-!
# Runs at a constant rate

A worker that follows a pacer of a constant rate sends each hit at its multiple of the
interval, or at once if that has passed when the run begins.  The run ends with the first hit
that is neither owed nor due within the range of schedules.
-/

namespace LoadShape.Pacing

open LoadShape.Number LoadShape.Time

namespace ConstantPacer

/-- The nanoseconds that have passed after `k` more hits. -/
def elapsedAfter (p : ConstantPacer) (s : Progress) : (k : Nat) → Nat
  | 0 => s.elapsed.nanos
  | k + 1 => max s.elapsed.nanos ((s.hits.toNat + (k + 1)) * p.interval)

/-- The wait between `k` more hits and the one after them. -/
def waitAfter (p : ConstantPacer) (s : Progress) (k : Nat) : Span :=
  .ofNanos (p.elapsedAfter s (k + 1) - p.elapsedAfter s k)

/-- After `k` more hits the next one is due beyond the last instant of any schedule, and no
hit is owed. -/
def ExhaustedAfter (p : ConstantPacer) (s : Progress) (k : Nat) : Prop :=
  scheduleEnd / p.interval < s.hits.toNat + k ∧
    min (p.rate.toNat * (p.elapsedAfter s k / nanosPerSecond)) wordMax ≤ s.hits.toNat + k

instance (p : ConstantPacer) (s : Progress) (k : Nat) : Decidable (p.ExhaustedAfter s k) :=
  inferInstanceAs (Decidable (_ ∧ _))

variable {p : ConstantPacer} {s : Progress}

@[simp]
theorem elapsedAfter_zero : p.elapsedAfter s 0 = s.elapsed.nanos := rfl

theorem elapsedAfter_succ (k : Nat) :
    p.elapsedAfter s (k + 1) =
      max s.elapsed.nanos ((s.hits.toNat + (k + 1)) * p.interval) := rfl

theorem elapsedAfter_one :
    p.elapsedAfter s 1 = max s.elapsed.nanos ((s.hits.toNat + 1) * p.interval) := rfl

/-! ## One hit -/

/-- A hit that is owed is due by then: whole intervals take no longer than the seconds in
which they are counted. -/
theorem due_le_of_behind {elapsed : Span} {hits : UInt64} (behind : p.Behind elapsed hits) :
    (hits.toNat + 1) * p.interval ≤ elapsed.nanos := by
  have owed : hits.toNat + 1 ≤ p.rate.toNat * elapsed.seconds :=
    Nat.le_trans behind (Nat.min_le_left _ _)
  calc (hits.toNat + 1) * p.interval
      ≤ p.rate.toNat * elapsed.seconds * p.interval := Nat.mul_le_mul_right _ owed
    _ = p.interval * p.rate.toNat * elapsed.seconds := by
        rw [Nat.mul_comm, ← Nat.mul_assoc]
    _ ≤ nanosPerSecond * elapsed.seconds :=
        Nat.mul_le_mul_right _ (Nat.div_mul_le_self nanosPerSecond p.rate.toNat)
    _ ≤ elapsed.nanos := Nat.mul_div_le elapsed.nanos nanosPerSecond

/-- A hit within the range of schedules is due within the range of spans. -/
theorem due_lt_of_inRange {hits : Nat} (inRange : hits ≤ scheduleEnd / p.interval) :
    (hits + 1) * p.interval < spanLimit :=
  (due_le_of_inRange inRange).trans_lt (by decide)

/-- A hit that is neither owed nor beyond the range of schedules is waited for until it is
due. -/
theorem pace_of_due {elapsed : Span} {hits : UInt64} (below : capped p.cap hits = false)
    (limited : p.rate ≠ 0) (enough : ¬ p.Behind elapsed hits)
    (inRange : hits.toNat ≤ scheduleEnd / p.interval) :
    ∃ wait, p.pace elapsed hits = .after wait ∧
      wait.nanos = (hits.toNat + 1) * p.interval - elapsed.nanos := by
  have counted : hits.toNat < wordMax :=
    Nat.lt_of_le_of_lt (Nat.le_trans inRange (Nat.div_le_self _ _)) (by decide)
  have due : p.dueNanos hits = (hits.toNat + 1) * p.interval := by
    rw [dueNanos, toNat_next, Nat.min_eq_left counted]
  refine ⟨.ofNanos (p.dueNanos hits) - elapsed, ?_, ?_⟩
  · rw [pace_of_enough below limited enough, if_neg fun out => Nat.not_le.mpr out.2 inRange]
  · rw [Span.nanos_sub, due, Span.nanos_ofNanos (due_lt_of_inRange inRange)]

theorem pace_of_exhausted (limited : p.rate ≠ 0) (slow : p.rate.toNat ≤ nanosPerSecond)
    (exhausted : p.ExhaustedAfter s 0) : p.pace s.elapsed s.hits = .stop := by
  rw [pace_eq_stop_iff]
  exact Or.inr ⟨limited, Nat.not_lt.mpr exhausted.2, interval_pos limited slow, exhausted.1⟩

/-- A worker that waits as long as it is told is then at the instant of its hit. -/
theorem after_waitAfter (due_lt : (s.hits.toNat + 1) * p.interval < spanLimit)
    (counted : s.hits.toNat < wordMax) :
    (p.waitAfter s 0).nanos = (s.hits.toNat + 1) * p.interval - s.elapsed.nanos ∧
      (s.after (p.waitAfter s 0)).elapsed.nanos = p.elapsedAfter s 1 ∧
      (s.after (p.waitAfter s 0)).hits.toNat = s.hits.toNat + 1 := by
  have begun := s.elapsed.nanos_lt
  have wait : (p.waitAfter s 0).nanos = (s.hits.toNat + 1) * p.interval - s.elapsed.nanos := by
    rw [waitAfter, elapsedAfter_one, elapsedAfter_zero, Span.nanos_ofNanos (by omega)]
    omega
  refine ⟨wait, ?_, ?_⟩
  · rw [Progress.after, Span.nanos_add, wait, elapsedAfter_one]
    omega
  · rw [Progress.after, toNat_next]
    exact Nat.min_eq_left counted

/-- A worker whose run is not exhausted waits for its next hit, and then has sent it. -/
theorem pace_of_not_exhausted (uncapped : p.cap = 0) (limited : p.rate ≠ 0)
    (goesOn : ¬ p.ExhaustedAfter s 0) :
    p.pace s.elapsed s.hits = .after (p.waitAfter s 0) ∧
      (s.after (p.waitAfter s 0)).elapsed.nanos = p.elapsedAfter s 1 ∧
      (s.after (p.waitAfter s 0)).hits.toNat = s.hits.toNat + 1 := by
  have below : capped p.cap s.hits = false := by
    rw [uncapped]
    rfl
  by_cases behind : p.Behind s.elapsed s.hits
  · have due := due_le_of_behind behind
    have counted : s.hits.toNat < wordMax := Nat.lt_of_lt_of_le behind (Nat.min_le_right _ _)
    obtain ⟨wait, after⟩ := after_waitAfter (Nat.lt_of_le_of_lt due s.elapsed.nanos_lt) counted
    refine ⟨?_, after⟩
    rw [pace_of_behind below limited behind, Pace.now]
    rw [Nat.sub_eq_zero_of_le due] at wait
    exact congrArg Pace.after (Span.ext wait.symm)
  · have inRange : s.hits.toNat ≤ scheduleEnd / p.interval := by
      by_contra beyond
      exact goesOn ⟨Nat.not_le.mp beyond, Nat.not_lt.mp behind⟩
    have counted : s.hits.toNat < wordMax :=
      Nat.lt_of_le_of_lt (Nat.le_trans inRange (Nat.div_le_self _ _)) (by decide)
    obtain ⟨wait, after⟩ := after_waitAfter (due_lt_of_inRange inRange) counted
    obtain ⟨time, answer, due⟩ := pace_of_due below limited behind inRange
    refine ⟨?_, after⟩
    rw [answer]
    exact congrArg Pace.after (Span.ext (due.trans wait.symm))

/-- There are no waits and no end at more than a hit per nanosecond. -/
theorem pace_of_fast (uncapped : p.cap = 0) (fast : nanosPerSecond < p.rate.toNat)
    (elapsed : Span) (hits : UInt64) : p.pace elapsed hits = .now := by
  have none_between : p.interval = 0 := Nat.div_eq_of_lt fast
  have goesOn : p.pace elapsed hits ≠ .stop := by
    rw [ne_eq, pace_eq_stop_iff, uncapped]
    rintro (reached | ⟨_, _, between, _⟩)
    · cases reached
    · exact Nat.ne_of_gt between none_between
  have wait : (p.pace elapsed hits).wait = .zero := wait_of_no_interval none_between
  cases answer : p.pace elapsed hits with
  | stop => exact absurd answer goesOn
  | after time =>
      rw [answer] at wait
      exact congrArg Pace.after wait

/-! ## All hits -/

/-- What follows the next hit is what follows from there. -/
theorem elapsedAfter_next {t : Progress} (elapsed : t.elapsed.nanos = p.elapsedAfter s 1)
    (hits : t.hits.toNat = s.hits.toNat + 1) (k : Nat) :
    p.elapsedAfter t k = p.elapsedAfter s (k + 1) := by
  cases k with
  | zero => exact elapsed
  | succ k =>
      have later : (s.hits.toNat + 1) * p.interval ≤ (s.hits.toNat + (k + 1 + 1)) * p.interval :=
        Nat.mul_le_mul_right _ (by omega)
      have count : s.hits.toNat + 1 + (k + 1) = s.hits.toNat + (k + 1 + 1) := by omega
      rw [elapsedAfter_succ, elapsed, elapsedAfter_one, elapsedAfter_succ, hits, count,
        Nat.max_assoc, Nat.max_eq_right later]

theorem waitAfter_next {t : Progress} (elapsed : t.elapsed.nanos = p.elapsedAfter s 1)
    (hits : t.hits.toNat = s.hits.toNat + 1) (k : Nat) :
    p.waitAfter t k = p.waitAfter s (k + 1) := by
  rw [waitAfter, elapsedAfter_next elapsed hits, elapsedAfter_next elapsed hits, waitAfter]

theorem exhaustedAfter_next {t : Progress} (elapsed : t.elapsed.nanos = p.elapsedAfter s 1)
    (hits : t.hits.toNat = s.hits.toNat + 1) (k : Nat) :
    p.ExhaustedAfter t k ↔ p.ExhaustedAfter s (k + 1) := by
  have count : s.hits.toNat + 1 + k = s.hits.toNat + (k + 1) := by omega
  rw [ExhaustedAfter, elapsedAfter_next elapsed hits, hits, count, ExhaustedAfter]

/-- A run goes on until it is exhausted, and then stops. -/
theorem run_until_exhausted (uncapped : p.cap = 0) (limited : p.rate ≠ 0)
    (slow : p.rate.toNat ≤ nanosPerSecond) {m : Nat} (exhausted : p.ExhaustedAfter s m)
    (goesOn : ∀ k < m, ¬ p.ExhaustedAfter s k) (n : Nat) :
    let run := (Pacer.run n (.constant p) s).value
    run.paces = (List.range (min n m)).map (fun k => .after (p.waitAfter s k)) ++
        (if m < n then [.stop] else []) ∧
      run.progress.elapsed.nanos = p.elapsedAfter s (min n m) ∧
      run.progress.hits.toNat = s.hits.toNat + min n m := by
  induction n generalizing s m with
  | zero => simp [Pacer.run, elapsedAfter]
  | succ n ih =>
      cases m with
      | zero =>
          have stops := pace_of_exhausted limited slow exhausted
          simp [Pacer.run, Pacer.pace, stops, elapsedAfter]
      | succ m =>
          obtain ⟨answer, elapsed, hits⟩ :=
            pace_of_not_exhausted uncapped limited (goesOn 0 (Nat.succ_pos m))
          obtain ⟨paces, later, sent⟩ := ih
            ((exhaustedAfter_next elapsed hits m).mpr exhausted) fun k below =>
              (exhaustedAfter_next elapsed hits k).not.mpr
                (goesOn (k + 1) (Nat.succ_lt_succ below))
          simp only [Pacer.run, Pacer.pace, answer]
          rw [Nat.succ_min_succ]
          refine ⟨?_, ?_, ?_⟩
          · rw [paces, List.range_succ_eq_map]
            simp [waitAfter_next elapsed hits, Function.comp_def]
          · rw [later, elapsedAfter_next elapsed hits]
          · rw [sent, hits]
            omega

/-- A run is exhausted at the latest when the hits cannot be counted any further. -/
theorem exists_exhausted (p : ConstantPacer) (s : Progress) :
    ∃ m, p.ExhaustedAfter s m ∧ (∀ k < m, ¬ p.ExhaustedAfter s k) ∧
      s.hits.toNat + m ≤ wordMax := by
  have counted := toNat_le_wordMax s.hits
  have full : s.hits.toNat + (wordMax - s.hits.toNat) = wordMax := Nat.add_sub_cancel' counted
  have last : p.ExhaustedAfter s (wordMax - s.hits.toNat) := by
    rw [ExhaustedAfter, full]
    exact ⟨Nat.lt_of_le_of_lt (Nat.div_le_self _ _) (by decide), Nat.min_le_right _ _⟩
  have some_time : ∃ m, p.ExhaustedAfter s m := ⟨_, last⟩
  refine ⟨Nat.find some_time, Nat.find_spec some_time,
    fun k below => Nat.find_min some_time below, ?_⟩
  have bound := Nat.find_min' some_time last
  omega

/-- A run that begins behind schedule sends hits at once until none is behind. -/
theorem waitAfter_eq_zero_iff (between : 0 < p.interval) (k : Nat) :
    p.waitAfter s k = .zero ↔ s.hits.toNat + k < s.elapsed.nanos / p.interval := by
  have at_once : p.waitAfter s k = .zero ↔ p.elapsedAfter s (k + 1) ≤ p.elapsedAfter s k := by
    have positive : 0 < spanLimit - 1 := by decide
    rw [Span.ext_iff, waitAfter, Span.ofNanos, Span.zero]
    dsimp only
    omega
  have passed : p.elapsedAfter s (k + 1) ≤ p.elapsedAfter s k ↔
      (s.hits.toNat + (k + 1)) * p.interval ≤ s.elapsed.nanos := by
    rw [elapsedAfter_succ]
    cases k with
    | zero =>
        rw [elapsedAfter_zero]
        omega
    | succ k =>
        have later : (s.hits.toNat + (k + 1)) * p.interval <
            (s.hits.toNat + (k + 1 + 1)) * p.interval :=
          Nat.mul_lt_mul_of_pos_right (by omega) between
        rw [elapsedAfter_succ]
        omega
  rw [at_once, passed, ← Nat.le_div_iff_mul_le between]
  omega

/-- A hit that is not behind when the run begins is sent at its multiple of the interval. -/
theorem elapsedAfter_of_due (between : 0 < p.interval) {k : Nat} (positive : 1 ≤ k)
    (due : s.elapsed.nanos / p.interval < s.hits.toNat + k) :
    p.elapsedAfter s k = (s.hits.toNat + k) * p.interval := by
  obtain ⟨k, rfl⟩ := Nat.exists_eq_succ_of_ne_zero (Nat.ne_of_gt positive)
  rw [Nat.succ_eq_add_one] at due ⊢
  rw [elapsedAfter_succ]
  exact Nat.max_eq_right (Nat.le_of_lt ((Nat.div_lt_iff_lt_mul between).mp due))

/-- At more than a hit per nanosecond all hits are sent at once. -/
theorem run_of_fast (uncapped : p.cap = 0) (fast : nanosPerSecond < p.rate.toNat) (n : Nat) :
    (Pacer.run n (.constant p) s).value =
      ⟨List.replicate n .now, ⟨s.elapsed, saturate (s.hits.toNat + n)⟩⟩ := by
  induction n generalizing s with
  | zero =>
      have counted := toNat_le_wordMax s.hits
      have same : saturate (s.hits.toNat + 0) = s.hits := by
        rw [← UInt64.toNat_inj, toNat_saturate]
        omega
      rw [Pacer.run, same]
      rfl
  | succ n ih =>
      have still : s.elapsed + .zero = s.elapsed := by
        have range := s.elapsed.nanos_lt
        refine Span.ext ?_
        rw [Span.nanos_add, Span.zero]
        dsimp only
        omega
      have count : saturate ((next s.hits).toNat + n) = saturate (s.hits.toNat + (n + 1)) := by
        rw [← UInt64.toNat_inj, toNat_saturate, toNat_saturate, toNat_next]
        omega
      have answer := pace_of_fast uncapped fast s.elapsed s.hits
      rw [Pace.now] at answer
      simp only [Pacer.run, Pacer.pace, answer]
      rw [ih, Progress.after, still, count]
      rfl

end ConstantPacer

/-- The run of a worker that follows a constant pacer without a cap, from any progress.  At no
more than a hit per nanosecond it is told to wait for one hit after another, each at its
multiple of the interval or at the time of the beginning if that is later, until it is told to
stop: in the first state in which the next hit is beyond the range of schedules and none is
owed, and there is such a state.  There is no wait exactly for the hits that are behind when
the run begins.  At more than a hit per nanosecond there is neither a wait nor a stop. -/
theorem Pacer.run_at_constant_rate (p : ConstantPacer) (uncapped : p.cap = 0)
    (limited : p.rate ≠ 0) (s : Progress) :
    let run (n : Nat) := (Pacer.run n (.constant p) s).value
    (p.rate.toNat ≤ nanosPerSecond →
        (∃ m, p.ExhaustedAfter s m ∧ (∀ k < m, ¬ p.ExhaustedAfter s k) ∧
          s.hits.toNat + m ≤ wordMax ∧
          ∀ n, (run n).paces = (List.range (min n m)).map (fun k => .after (p.waitAfter s k)) ++
                (if m < n then [.stop] else []) ∧
            (run n).progress.elapsed.nanos = p.elapsedAfter s (min n m) ∧
            (run n).progress.hits.toNat = s.hits.toNat + min n m) ∧
        (∀ k, p.waitAfter s k = .zero ↔ s.hits.toNat + k < s.elapsed.nanos / p.interval) ∧
        (∀ k, 1 ≤ k → s.elapsed.nanos / p.interval < s.hits.toNat + k →
          p.elapsedAfter s k = (s.hits.toNat + k) * p.interval)) ∧
      (nanosPerSecond < p.rate.toNat → ∀ n,
        run n = ⟨List.replicate n .now, ⟨s.elapsed, saturate (s.hits.toNat + n)⟩⟩) := by
  intro run
  refine ⟨fun slow => ?_, fun fast => ConstantPacer.run_of_fast uncapped fast⟩
  have between := ConstantPacer.interval_pos limited slow
  obtain ⟨m, exhausted, goesOn, counted⟩ := p.exists_exhausted s
  refine ⟨⟨m, exhausted, goesOn, counted, ?_⟩, ?_, ?_⟩
  · exact ConstantPacer.run_until_exhausted uncapped limited slow exhausted goesOn
  · exact ConstantPacer.waitAfter_eq_zero_iff between
  · intro k
    exact ConstantPacer.elapsedAfter_of_due between

/-- Two hits per second for a worker that has sent none in one and seven tenths seconds: it
sends the three that are behind at once, the third of them although a whole-second count owes
only two, and the fourth and the fifth at their multiples of half a second. -/
theorem Pacer.run_at_constant_rate_behind :
    let run := (Pacer.run 5 (.constant { rate := 2 }) ⟨.ofNanos 1700000000, 0⟩).value
    run.paces =
        [.now, .now, .now, .after (.ofNanos 300000000), .after (.ofNanos 500000000)] ∧
      run.progress.elapsed.nanos = 2500000000 ∧ run.progress.hits.toNat = 5 := by
  intro run
  obtain ⟨m, exhausted, _, _, runs⟩ :=
    ((run_at_constant_rate { rate := 2 } rfl (by decide) ⟨.ofNanos 1700000000, 0⟩).1
      (by decide)).1
  have far : 5 ≤ m := by
    by_contra near
    have range : ¬ scheduleEnd / ({ rate := 2 } : ConstantPacer).interval < 0 + 4 := by decide
    have beyond := exhausted.1
    change _ < 0 + m at beyond
    omega
  obtain ⟨paces, elapsed, hits⟩ := runs 5
  rw [Nat.min_eq_left far] at paces elapsed hits
  rw [if_neg (Nat.not_lt.mpr far)] at paces
  exact ⟨paces.trans (by decide), elapsed.trans (by decide), hits.trans (by decide)⟩

end LoadShape.Pacing
