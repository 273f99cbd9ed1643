import LoadShape.Proofs.Pacing.ConstantRun

/-!
# The range of schedules

A pacer of a constant rate ends the run when more hits have been sent than there are whole
intervals in the range of schedules.  Until then a worker waits for the hit after those, which is
due one interval later than they were, and so one interval past the range at most.
-/

namespace LoadShape.Pacing

open LoadShape.Number LoadShape.Time

namespace ConstantPacer

variable {p : ConstantPacer} {elapsed wait : Span} {hits : UInt64}

/-- Every hit that a worker is told to wait for is due within the range of schedules. -/
def KeepsRange (p : ConstantPacer) : Prop :=
  ∀ elapsed hits wait, p.pace elapsed hits = .after wait → wait ≠ .zero →
    elapsed.nanos + wait.nanos ≤ scheduleEnd

/-- The reasons for which a worker is told to wait: it has sent all the hits that it owes, and
not more of them than there are intervals in the range. -/
theorem of_waits (waits : p.pace elapsed hits = .after wait) (positive : wait ≠ .zero) :
    capped p.cap hits = false ∧ p.rate ≠ 0 ∧ 0 < p.interval ∧
      hits.toNat ≤ scheduleEnd / p.interval ∧
      elapsed.nanos + wait.nanos = (hits.toNat + 1) * p.interval := by
  have goesOn : p.pace elapsed hits ≠ .stop := by
    rw [waits]
    exact nofun
  have notNow : p.pace elapsed hits ≠ .now := by
    rw [waits, Pace.now]
    exact fun same => positive (Pace.after.inj same)
  rw [ne_eq, pace_eq_stop_iff, not_or] at goesOn
  obtain ⟨uncapped, inRange⟩ := goesOn
  have below : capped p.cap hits = false := by simpa using uncapped
  have limited : p.rate ≠ 0 := by
    intro unlimited
    exact notNow (by rw [pace, below, if_neg Bool.false_ne_true, if_pos unlimited])
  have enough : ¬ p.Behind elapsed hits := fun behind =>
    notNow (pace_of_behind below limited behind)
  have between : 0 < p.interval := by
    refine Nat.pos_of_ne_zero fun none_between => positive ?_
    have at_once : (p.pace elapsed hits).wait = .zero := wait_of_no_interval none_between
    rwa [waits] at at_once
  have due_inRange : hits.toNat ≤ scheduleEnd / p.interval := by
    by_contra beyond
    exact inRange ⟨limited, enough, between, Nat.not_le.mp beyond⟩
  obtain ⟨time, answer, due⟩ := pace_of_due below limited enough due_inRange
  have same : time = wait := Pace.after.inj (answer.symm.trans waits)
  have some_time : wait.nanos ≠ 0 := fun none => positive (Span.ext none)
  rw [same] at due
  exact ⟨below, limited, between, due_inRange, by omega⟩

/-- The hit after as many as there are intervals in the range is due past its end. -/
theorem scheduleEnd_lt_due (between : 0 < p.interval) :
    scheduleEnd < (scheduleEnd / p.interval + 1) * p.interval := by
  rw [Nat.mul_comm]
  exact Nat.lt_mul_div_succ _ between

/-- The hit after fewer than that is due within it. -/
theorem due_le_scheduleEnd_iff (between : 0 < p.interval) (n : Nat) :
    (n + 1) * p.interval ≤ scheduleEnd ↔ n < scheduleEnd / p.interval :=
  (Nat.le_div_iff_mul_le between).symm

/-- After as many hits as there are intervals in the range, at most, the next one is due one
interval past its end at most. -/
theorem due_le_of_le (between : 0 < p.interval) {n : Nat} (le : n ≤ scheduleEnd / p.interval) :
    (n + 1) * p.interval ≤ scheduleEnd + p.interval := by
  calc
    (n + 1) * p.interval = n * p.interval + p.interval := Nat.succ_mul n p.interval
    _ ≤ scheduleEnd + p.interval :=
      Nat.add_le_add_right ((Nat.le_div_iff_mul_le between).mp le) p.interval

/-- With as many hits as there are intervals in the range a worker waits past its end, unless
they reach the cap. -/
theorem exists_waits_past_range (limited : p.rate ≠ 0)
    (below : capped p.cap (saturate (scheduleEnd / p.interval)) = false) :
    ∃ wait, p.pace .zero (saturate (scheduleEnd / p.interval)) = .after wait ∧
      wait.nanos = (scheduleEnd / p.interval + 1) * p.interval := by
  have count : (saturate (scheduleEnd / p.interval)).toNat = scheduleEnd / p.interval := by
    rw [toNat_saturate]
    exact Nat.min_eq_left (Nat.le_trans (Nat.div_le_self _ _) (by decide))
  have none_owed : p.owed .zero = 0 := Nat.min_eq_left (Nat.zero_le _)
  have enough : ¬ p.Behind .zero (saturate (scheduleEnd / p.interval)) := by
    rw [Behind, none_owed]
    exact Nat.not_lt_zero _
  obtain ⟨wait, waits, due⟩ := pace_of_due below limited enough (Nat.le_of_eq count)
  rw [count] at due
  exact ⟨wait, waits, due⟩

/-- The pacer keeps the range exactly if it never waits, for want of a limit or of a whole
nanosecond between two hits, or if its cap is reached by the end of the range. -/
theorem keepsRange_iff (p : ConstantPacer) :
    p.KeepsRange ↔
      p.rate = 0 ∨ nanosPerSecond < p.rate.toNat ∨
        capped p.cap (saturate (scheduleEnd / p.interval)) = true := by
  constructor
  · intro keeps
    by_contra waits_past
    simp only [not_or, Nat.not_lt, Bool.not_eq_true] at waits_past
    obtain ⟨limited, slow, below⟩ := waits_past
    have between := interval_pos limited slow
    obtain ⟨wait, waits, due⟩ := exists_waits_past_range limited below
    have past := scheduleEnd_lt_due between
    have positive : wait ≠ .zero := by
      rintro rfl
      change 0 = _ at due
      omega
    have within := keeps .zero _ wait waits positive
    change 0 + wait.nanos ≤ scheduleEnd at within
    omega
  · intro ends elapsed hits wait waits positive
    obtain ⟨below, limited, between, inRange, due⟩ := of_waits waits positive
    rcases ends with unlimited | fast | reached
    · exact absurd unlimited limited
    · exact absurd (Nat.div_eq_of_lt fast) (Nat.ne_of_gt between)
    · rw [due, due_le_scheduleEnd_iff between]
      by_contra last
      have le : saturate (scheduleEnd / p.interval) ≤ hits := by
        rw [UInt64.le_iff_toNat_le, toNat_saturate]
        exact Nat.le_trans (Nat.min_le_left _ _) (Nat.not_lt.mp last)
      rw [capped_mono le reached] at below
      cases below

/-- A worker that is told to wait has sent no more hits than there are whole intervals in the range
of schedules, and is told to wait for the next multiple of the interval: one interval past the range
at most, and past it exactly if it has sent as many hits as that.  A worker that has sent more of
them, and all that it owes, is stopped.  So the range is kept by a pacer that never waits, or whose
cap is reached by its end, and by no other one. -/
theorem waits_until_next_multiple (p : ConstantPacer) :
    (∀ elapsed hits wait, p.pace elapsed hits = .after wait → wait ≠ .zero →
        hits.toNat ≤ scheduleEnd / p.interval ∧
          elapsed.nanos + wait.nanos = (hits.toNat + 1) * p.interval ∧
          elapsed.nanos + wait.nanos ≤ scheduleEnd + p.interval ∧
          (elapsed.nanos + wait.nanos ≤ scheduleEnd ↔
            hits.toNat < scheduleEnd / p.interval)) ∧
      (∀ elapsed hits, p.rate ≠ 0 → ¬ p.Behind elapsed hits → p.OutOfRange hits →
        p.pace elapsed hits = .stop) ∧
      (p.KeepsRange ↔
        p.rate = 0 ∨ nanosPerSecond < p.rate.toNat ∨
          capped p.cap (saturate (scheduleEnd / p.interval)) = true) := by
  refine ⟨?_, ?_, ?_⟩
  · intro elapsed hits wait waits positive
    obtain ⟨-, -, between, inRange, due⟩ := of_waits waits positive
    rw [due]
    exact ⟨inRange, rfl, due_le_of_le between inRange, due_le_scheduleEnd_iff between hits.toNat⟩
  · intro elapsed hits limited enough outOfRange
    rw [pace_eq_stop_iff]
    exact Or.inr ⟨limited, enough, outOfRange⟩
  · exact keepsRange_iff p

/-- One hit per second, after all of the seconds in the range: the next hit is waited for until
the second that the range ends in is over. -/
theorem waits_past_range :
    let p : ConstantPacer := { rate := 1 }
    p.pace .zero 9223372036 = .after (.ofSeconds 9223372037) ∧
      Span.ofSeconds 9223372037 ≠ .zero ∧
      ¬ Span.zero.nanos + (Span.ofSeconds 9223372037).nanos ≤ scheduleEnd := by
  decide +kernel

end ConstantPacer

end LoadShape.Pacing
