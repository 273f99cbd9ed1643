import LoadShape.Proofs.Workers.CallRun

/-!
# More workers than can be counted

The addition after a handover is the only operation of a call that can overflow, and it does so
exactly if the step that was handed over leads to more workers than can be counted.  Nothing is
produced after such a step, and the call returns the overflow.

A call also fails at the end of the clock, and with the error of a system that has refused its
thread.
-/

namespace LoadShape.Workers

open LoadShape.Time

namespace WorkerRamp

variable {r : WorkerRamp} {ticks : List Tick} {workers : Int} {n : Nat}

/-- The `n`-th tick goes on to more workers than can be counted, as far as the steps add up. -/
def TooManyAt (r : WorkerRamp) (ticks : List Tick) (n : Nat) : Prop :=
  1 ≤ n ∧ ∃ tick, ticks[n]? = some tick ∧ tick.done = false ∧
    countMax < r.start.toNat + n * r.step.toInt

/-- Such a tick is still there when more ticks have been handed over. -/
theorem TooManyAt.append (tooMany : r.TooManyAt ticks n) (more : List Tick) :
    r.TooManyAt (ticks ++ more) n := by
  obtain ⟨pos, tick, found, goesOn, beyond⟩ := tooMany
  obtain ⟨inside, -⟩ := List.getElem?_eq_some_iff.mp found
  exact ⟨pos, tick, (List.getElem?_append_left inside).trans found, goesOn, beyond⟩

theorem Counts.not_tooManyAt (counts : r.Counts ticks workers) (n : Nat) :
    ¬ r.TooManyAt ticks n := by
  rintro ⟨-, tick, found, -, beyond⟩
  obtain ⟨last, rfl, -, counted⟩ := counts
  obtain ⟨inside, -⟩ := List.getElem?_eq_some_iff.mp found
  rw [length_stepTicks] at inside
  exact absurd beyond (Int.not_lt.mpr (steps_le_countMax (Nat.le_of_lt_succ inside) counted))

theorem Completes.not_tooManyAt (completes : r.Completes ticks) (n : Nat) :
    ¬ r.TooManyAt ticks n := by
  rintro ⟨pos, tick, found, goesOn, beyond⟩
  obtain ⟨steps, workers, last, counts, rfl, done⟩ := completes
  rcases Nat.lt_or_ge n steps.length with inside | after
  · rw [List.getElem?_append_left inside] at found
    exact counts.not_tooManyAt n ⟨pos, tick, found, goesOn, beyond⟩
  · rw [List.getElem?_append_right after] at found
    have only : tick = last := by
      simpa using List.mem_of_getElem? found
    rw [only, done] at goesOn
    cases goesOn

/-- More workers than can be counted are as many as the steps add up to. -/
theorem countMax_lt_of_workersAfter (beyond : countMax < r.workersAfter n) :
    countMax < r.start.toNat + n * r.step.toInt := by
  have some_counted : 0 ≤ countMax := by decide
  unfold workersAfter at beyond
  omega

theorem Overflows.exists_tooManyAt (overflows : r.Overflows ticks) : ∃ n, r.TooManyAt ticks n := by
  obtain ⟨n, rfl, -, beyond⟩ := overflows
  refine ⟨n + 1, Nat.le_add_left 1 n, r.stepTick (n + 1), ?_, stepTick_done _,
    countMax_lt_of_workersAfter beyond⟩
  rw [stepTicks, List.getElem?_map, List.getElem?_range (Nat.lt_succ_self _)]
  rfl

/-- It is the last tick that leads to too many workers. -/
theorem Overflows.eq_stepTicks (overflows : r.Overflows ticks) (tooMany : r.TooManyAt ticks n) :
    ticks = r.stepTicks (n + 1) := by
  obtain ⟨last, rfl, counted, -⟩ := overflows
  obtain ⟨-, tick, found, -, beyond⟩ := tooMany
  obtain ⟨inside, -⟩ := List.getElem?_eq_some_iff.mp found
  rw [length_stepTicks] at inside
  have later : ¬ n ≤ last := fun le => absurd beyond (Int.not_lt.mpr (steps_le_countMax le counted))
  rw [show n = last + 1 by omega]

/-- The last tick changes the workers by the correction, or not at all. -/
theorem delta_tickAt_of_done {elapsed : Nat} (done : (r.tickAt workers elapsed).done = true) :
    (r.tickAt workers elapsed).delta = r.correction workers ∨
      (r.tickAt workers elapsed).delta = 0 := by
  have step (last : (r.stepFrom workers).done = true) : (r.stepFrom workers).delta = 0 := by
    unfold stepFrom at last ⊢
    split at last
    · next stops => rw [if_pos stops]
    · cases last
  unfold tickAt at done ⊢
  split
  · next budget given =>
      simp only [given] at done
      split
      · exact Or.inl rfl
      · next early =>
          rw [if_neg early] at done
          exact Or.inr (step done)
  · next unlimited =>
      simp only [unlimited] at done
      split
      · exact Or.inr rfl
      · next short =>
          rw [if_neg short] at done
          exact Or.inr (step done)

/-- After the last tick the workers can be counted. -/
theorem Counts.sum_of_done (counts : r.Counts ticks workers) {elapsed : Nat}
    (done : (r.tickAt workers elapsed).done = true) :
    IsCount (workers + (r.tickAt workers elapsed).delta) := by
  have least : countMin ≤ 0 := by decide
  have staffed := r.add_delta_nonneg counts.nonneg elapsed
  have before := counts.le
  have arrived : workers + r.correction workers ≤ countMax := by
    have target := r.target.toNat_lt
    unfold correction countMax Number.signedMax at *
    split <;> omega
  refine ⟨least.trans staffed, ?_⟩
  rcases delta_tickAt_of_done done with corrected | unchanged
  · rw [corrected]
    exact arrived
  · rw [unchanged, Int.add_zero]
    exact before

/-- A sum that cannot be counted is due to a step that goes on to too many workers. -/
theorem Counts.sum (counts : r.Counts ticks workers) (elapsed : Nat) :
    let tick := r.tickAt workers elapsed
    IsCount (workers + tick.delta) ∨ r.TooManyAt (ticks ++ [tick]) ticks.length := by
  intro tick
  cases goesOn : tick.done with
  | true => exact Or.inl (counts.sum_of_done goesOn)
  | false =>
      rcases counts.step goesOn with ⟨counted, -⟩ | ⟨-, overflows⟩
      · exact Or.inl counted
      · obtain ⟨n, tooMany⟩ := overflows.exists_tooManyAt
        have length := congrArg List.length (overflows.eq_stepTicks tooMany)
        rw [length_stepTicks, List.length_append, List.length_singleton] at length
        rw [Nat.succ_injective length]
        exact Or.inr tooMany

end WorkerRamp

/-- The workers that a thread counts while its loop goes on. -/
def Thread.workers? : Thread → Option Int
  | .asking _ workers | .asleep _ workers | .sending _ _ workers => some workers
  | .unstarted | .reporting _ | .leaving | .finished | .panicked _ => none

theorem Thread.Fits.counts {r : WorkerRamp} {clock : Nat} {ticks : List Tick} {thread : Thread}
    {workers : Int} (fits : thread.Fits r clock ticks) (counting : thread.workers? = some workers) :
    r.Counts ticks workers := by
  cases fits with
  | asking counts soon =>
      cases counting
      exact counts
  | asleep counts =>
      cases counting
      exact counts
  | sending counts soon =>
      cases counting
      exact counts
  | unstarted | reporting | leaving | finished | overflowed | outOfTime => cases counting

namespace Call

variable {r : WorkerRamp} {host : Host} {c next : Call} {tick : Tick} {n : Nat} {panic : Panic}
  {outcome : Except TickerFault Unit}

/-! ## What was handed over stays so -/

theorem handedOver_handOver (handed : c.handOver? r = some (tick, next)) :
    next.handedOver = c.handedOver ++ [tick] := by
  rcases handOver?_cases handed with ⟨-, -, rfl⟩ | ⟨due, workers, -, rfl⟩
  · rfl
  · rfl

theorem prefix_of_send (sent : c.send? r = some next) : c.handedOver <+: next.handedOver := by
  unfold send? at sent
  split at sent
  · obtain ⟨⟨tick, after⟩, handed, rfl⟩ := Option.map_eq_some_iff.mp sent
    exact ⟨[tick], (handedOver_handOver handed).symm⟩
  · cases sent

theorem prefix_of_take (taken : c.take? r = some next) : c.handedOver <+: next.handedOver := by
  unfold take? at taken
  split at taken
  · cases taken
    exact List.prefix_rfl
  · obtain ⟨⟨tick, after⟩, handed, rfl⟩ := Option.map_eq_some_iff.mp taken
    exact ⟨[tick], (handedOver_handOver handed).symm⟩

theorem prefix_of_callerMove (moved : c.callerMove? r host = some next) :
    c.handedOver <+: next.handedOver := by
  unfold callerMove? at moved
  cases calls : c.caller with
  | greeting =>
      simp only [calls] at moved
      split at moved
      · cases moved
        exact List.prefix_rfl
      · exact prefix_of_send moved
  | starting =>
      simp only [calls] at moved
      split at moved <;> cases moved <;> exact List.prefix_rfl
  | waiting =>
      simp only [calls] at moved
      split at moved
      · cases moved
        exact List.prefix_rfl
      · split at moved <;> cases moved <;> exact List.prefix_rfl
  | joining report? =>
      simp only [calls] at moved
      split at moved <;> cases moved <;> exact List.prefix_rfl
  | returned outcome =>
      simp only [calls] at moved
      cases moved

theorem prefix_of_threadMove (moved : c.threadMove? r host.timer = some next) :
    c.handedOver <+: next.handedOver := by
  unfold threadMove? at moved
  cases works : c.thread with
  | asking due workers =>
      simp only [works] at moved
      split at moved
      · cases moved
        exact List.prefix_rfl
      · split at moved <;> cases moved <;> exact List.prefix_rfl
  | asleep wake workers =>
      simp only [works] at moved
      split at moved
      · split at moved <;> cases moved <;> exact List.prefix_rfl
      · cases moved
  | sending tick due workers =>
      simp only [works] at moved
      split at moved
      · cases moved
        exact List.prefix_rfl
      · exact prefix_of_send moved
  | reporting | leaving =>
      simp only [works] at moved
      cases moved
      exact List.prefix_rfl
  | unstarted | finished | panicked =>
      simp only [works] at moved
      cases moved

/-- Ticks that were handed over are never taken back. -/
theorem prefix_of_move {move : Move} (moved : c.move? r host move = some next) :
    c.handedOver <+: next.handedOver := by
  cases move with
  | caller => exact prefix_of_callerMove moved
  | thread => exact prefix_of_threadMove moved
  | take => exact prefix_of_take moved
  | put tick =>
      simp only [move?] at moved
      split at moved <;> cases moved
      exact List.prefix_rfl
  | pass | close | share | letGo =>
      cases moved
      exact List.prefix_rfl

theorem LeadsTo.handedOver (leads : c.LeadsTo r host next) :
    c.handedOver <+: next.handedOver := by
  obtain ⟨moves, performed⟩ := leads
  induction moves generalizing c with
  | nil =>
      cases performed
      exact List.prefix_rfl
  | cons move moves ih =>
      obtain ⟨after, moved, rest⟩ := Option.bind_eq_some_iff.mp performed
      exact (prefix_of_move moved).trans (ih rest)

/-! ## How a call ends -/

/-- Too many workers are the only reason for the thread to panic in an addition. -/
theorem Sound.panicked_of_tooManyAt (sound : c.Sound r host)
    (tooMany : r.TooManyAt c.handedOver n) :
    c.thread = .panicked .addition ∧ c.handedOver = r.stepTicks (n + 1) := by
  have fits := sound.thread
  generalize c.thread = thread at fits
  cases fits with
  | overflowed overflows => exact ⟨rfl, overflows.eq_stepTicks tooMany⟩
  | unstarted early =>
      obtain ⟨pos, tick, found, -⟩ := tooMany
      obtain ⟨inside, -⟩ := List.getElem?_eq_some_iff.mp found
      exact absurd (pos.trans_lt inside) (Nat.not_lt.mpr early)
  | asking counts => exact absurd tooMany (counts.not_tooManyAt n)
  | asleep counts => exact absurd tooMany (counts.not_tooManyAt n)
  | sending counts => exact absurd tooMany (counts.not_tooManyAt n)
  | outOfTime counts => exact absurd tooMany (counts.not_tooManyAt n)
  | reporting completes => exact absurd tooMany (completes.not_tooManyAt n)
  | leaving completes => exact absurd tooMany (completes.not_tooManyAt n)
  | finished completes => exact absurd tooMany (completes.not_tooManyAt n)

theorem Sound.exists_tooManyAt (sound : c.Sound r host)
    (panicked : c.thread = .panicked .addition) :
    ∃ n, r.TooManyAt c.handedOver n := by
  have fits := sound.thread
  rw [panicked] at fits
  cases fits with
  | overflowed overflows => exact overflows.exists_tooManyAt

/-- The system has refused the thread, and the call has returned its error after the first
tick. -/
def Refused (r : WorkerRamp) (host : Host) (c : Call) (outcome : Except TickerFault Unit) : Prop :=
  ∃ instant error, host.refusal? instant = some error ∧ outcome = .error (.notStarted error) ∧
    c.thread = .unstarted ∧ c.handedOver = [r.firstTick]

theorem Refused.not_startsThreads (refused : c.Refused r host outcome) :
    ¬ host.StartsThreads := by
  intro starts
  obtain ⟨instant, error, refuses, -⟩ := refused
  cases refuses.symm.trans (starts instant)

/-- A call returns well, or what its thread has panicked with, or what the system has refused the
thread with. -/
theorem Sound.returned_cases (sound : c.Sound r host) (returned : c.caller = .returned outcome) :
    outcome = .ok () ∧ c.thread = .finished ∨
      (∃ panic, c.thread = .panicked panic ∧ outcome = .error panic.fault) ∨
      c.Refused r host outcome := by
  have fits := sound.caller
  rw [returned] at fits
  generalize works : c.thread = thread at fits
  generalize c.report? = report? at fits
  cases fits with
  | returned => exact Or.inl ⟨rfl, rfl⟩
  | failed => exact Or.inr (Or.inl ⟨_, rfl, rfl⟩)
  | refused first refuses => exact Or.inr (Or.inr ⟨_, _, refuses, rfl, works, first⟩)

/-- A consumer takes the first tick, and the system refuses the thread. -/
example (r : WorkerRamp) (error : String) :
    ((begin { capacity := 0 } 1).perform r ⟨.endless, fun _ => some error⟩
      [.take, .caller]).map (·.caller) = some (.returned (.error (.notStarted error))) := rfl

/-- The caller of a thread that has panicked is at most two moves from returning. -/
theorem Sound.returns (sound : c.Sound r host) (panicked : c.thread = .panicked panic) :
    ∃ k ≤ 2, ∃ next, c.perform r host (List.replicate k .caller) = some next ∧
      next.caller = .returned (.error panic.fault) := by
  obtain ⟨-, -, calls⟩ := sound
  obtain ⟨clock, stream, holders, caller, thread, report?, ticks⟩ := c
  dsimp only at panicked calls
  subst panicked
  cases calls with
  | waiting => exact ⟨2, Nat.le_refl 2, _, rfl, rfl⟩
  | failing => exact ⟨1, Nat.le_succ 1, _, rfl, rfl⟩
  | failed => exact ⟨0, Nat.zero_le 2, _, rfl, rfl⟩
  | reported through => cases through
  | joining through => cases through

/-- A call whose thread has panicked has nothing in hand. -/
theorem Sound.produced_of_panicked (sound : c.Sound r host)
    (panicked : c.thread = .panicked panic) :
    c.produced r = c.handedOver := by
  cases handed : c.handOver? r with
  | none => rw [produced, handed, Option.map_none, Option.toList_none, List.append_nil]
  | some pair =>
      obtain ⟨tick, next⟩ := pair
      rcases handOver?_cases handed with ⟨greets, -, -⟩ | ⟨due, workers, works, -⟩
      · have idle := (sound.unstarted greets).1
        rw [panicked] at idle
        cases idle
      · rw [panicked] at works
        cases works

/-- After too many workers nothing more is produced, however the call goes on. -/
theorem Sound.produced_after (sound : c.Sound r host) (endless : host.timer.Endless)
    (tooMany : r.TooManyAt c.handedOver n) (leads : c.LeadsTo r host next) :
    next.produced r = c.handedOver := by
  have sound_next := sound.leadsTo endless leads
  have tooMany_next : r.TooManyAt next.handedOver n := by
    obtain ⟨more, handed⟩ := leads.handedOver
    rw [← handed]
    exact tooMany.append more
  obtain ⟨panicked, steps_next⟩ := sound_next.panicked_of_tooManyAt tooMany_next
  obtain ⟨-, steps⟩ := sound.panicked_of_tooManyAt tooMany
  rw [sound_next.produced_of_panicked panicked, steps_next, steps]

/-- How a call goes on after the `n`-th of its ticks has led to too many workers. -/
structure StopsAt (r : WorkerRamp) (host : Host) (c : Call) (n : Nat) : Prop where
  /-- It has handed over that tick and the steps before it. -/
  steps : c.handedOver = r.stepTicks (n + 1)
  /-- None of them was the last tick of the ramp. -/
  goesOn : ∀ tick ∈ c.handedOver, tick.done = false
  /-- It never produces any other tick. -/
  nothingMore : ∀ next, c.LeadsTo r host next → next.produced r = c.handedOver
  /-- It returns as soon as the caller makes its next moves. -/
  returns : ∃ k ≤ 2, ∃ next, c.perform r host (List.replicate k .caller) = some next ∧
    next.caller = .returned (.error .countOverflow)

/-- At this point of a call, no operation but the addition after a handover has failed or can
fail. -/
structure FailsOnlyByAddition (r : WorkerRamp) (host : Host) (c : Call) : Prop where
  /-- The thread panics for too many workers, or at the end of the clock. -/
  panics : ∀ panic, c.thread = .panicked panic →
    panic = .addition ∨ panic = .instant ∧ clockEnd ≤ c.clock + 2 * r.period.nanos
  /-- It has panicked for too many workers exactly if a tick that leads to them was handed
  over. -/
  panics_iff : c.thread = .panicked .addition ↔ ∃ n, r.TooManyAt c.handedOver n
  /-- The call returns well, or with too many workers, or at the end of the clock, or with the
  error of a system that has refused the thread. -/
  outcome : ∀ outcome, c.caller = .returned outcome → outcome = .ok () ∨
    outcome = .error .countOverflow ∨
    outcome = .error .clockOverflow ∧ clockEnd ≤ c.clock + 2 * r.period.nanos ∨
    c.Refused r host outcome
  /-- A call that has returned has overflowed exactly if such a tick was handed over. -/
  overflow_iff : ∀ outcome, c.caller = .returned outcome →
    (outcome = .error .countOverflow ↔ ∃ n, r.TooManyAt c.handedOver n)
  stops : ∀ n, r.TooManyAt c.handedOver n → c.StopsAt r host n
  negative : ∀ workers, c.thread.workers? = some workers → IsCount (-workers)
  distance : ∀ workers, c.thread.workers? = some workers → IsCount (r.target.toNat - workers)
  /-- The sum overflows only if the tick in the hand of the thread will lead to too many
  workers. -/
  sum : ∀ tick due workers, c.thread = .sending tick due workers →
    IsCount (workers + tick.delta) ∨ r.TooManyAt (c.handedOver ++ [tick]) c.handedOver.length

theorem Sound.stopsAt (sound : c.Sound r host) (endless : host.timer.Endless)
    (tooMany : r.TooManyAt c.handedOver n) : c.StopsAt r host n := by
  obtain ⟨panicked, steps⟩ := sound.panicked_of_tooManyAt tooMany
  refine ⟨steps, ?_, fun next => sound.produced_after endless tooMany, sound.returns panicked⟩
  rw [steps]
  exact fun tick => WorkerRamp.not_done_of_mem_stepTicks

theorem Sound.panics (sound : c.Sound r host) (panicked : c.thread = .panicked panic) :
    panic = .addition ∨ panic = .instant ∧ clockEnd ≤ c.clock + 2 * r.period.nanos := by
  have fits := sound.thread
  rw [panicked] at fits
  cases fits with
  | overflowed => exact Or.inl rfl
  | outOfTime counts late => exact Or.inr ⟨rfl, late⟩

theorem Sound.panicked_addition_iff (sound : c.Sound r host) :
    c.thread = .panicked .addition ↔ ∃ n, r.TooManyAt c.handedOver n := by
  constructor
  · exact sound.exists_tooManyAt
  · rintro ⟨n, tooMany⟩
    exact (sound.panicked_of_tooManyAt tooMany).1

/-- A call that has returned has overflowed exactly if its thread has. -/
theorem Sound.overflow_iff (sound : c.Sound r host) (returned : c.caller = .returned outcome) :
    outcome = .error .countOverflow ↔ c.thread = .panicked .addition := by
  rcases sound.returned_cases returned with ⟨rfl, finished⟩ | ⟨panic, panicked, rfl⟩ |
    ⟨instant, error, -, rfl, unstarted, -⟩
  · simp [finished]
  · rw [panicked]
    cases panic <;> simp [Panic.fault]
  · simp [unstarted]

theorem Sound.failsOnlyByAddition (sound : c.Sound r host) (endless : host.timer.Endless) :
    c.FailsOnlyByAddition r host where
  panics panic := sound.panics
  panics_iff := sound.panicked_addition_iff
  outcome outcome returned := by
    rcases sound.returned_cases returned with ⟨well, -⟩ | ⟨panic, panicked, rfl⟩ | refused
    · exact Or.inl well
    · rcases sound.panics panicked with rfl | ⟨rfl, late⟩
      · exact Or.inr (Or.inl rfl)
      · exact Or.inr (Or.inr (Or.inl ⟨rfl, late⟩))
    · exact Or.inr (Or.inr (Or.inr refused))
  overflow_iff outcome returned :=
    (sound.overflow_iff returned).trans sound.panicked_addition_iff
  stops n := sound.stopsAt endless
  negative workers counting := by
    have counts := sound.thread.counts counting
    exact WorkerRamp.isCount_neg counts.nonneg counts.le
  distance workers counting := by
    have counts := sound.thread.counts counting
    exact WorkerRamp.isCount_target_sub counts.nonneg counts.le
  sum tick due workers works := by
    have fits := sound.thread
    rw [works] at fits
    cases fits with
    | @sending _ elapsed _ counts soon => exact counts.sum elapsed

end Call

/-- The report of the overflow says which fault it is. -/
theorem eq_countOverflow_of_report {fault : TickerFault}
    (reported : fault.report =
      ⟨.ticker, "worker ticker thread panicked: attempt to add with overflow"⟩) :
    fault = .countOverflow := by
  cases fault with
  | countOverflow => rfl
  | notStarted error => cases congrArg Report.category reported
  | _ => exact absurd reported (by decide)

/-- Whatever happens around a call on an open stream, its arithmetic fails only in the addition
after a handover, and exactly if a tick that is not the last one leads to more workers than can
be counted.  That tick and the steps before it are all that the call ever produces, and the call
returns the overflow.  On a system that starts its thread there is no other error before the end of
the clock, and every run is such a call. -/
theorem Ticker.fails_only_by_addition {ticker : Ticker} {r : WorkerRamp}
    (ramp : ticker.ramp? = some r) {stream : TickStream} (opened : stream.closed = false)
    (receivers : Nat) {host : Host} (endless : host.timer.Endless) :
    (∀ c, (Call.begin stream receivers).LeadsTo r host c → c.FailsOnlyByAddition r host) ∧
      (host.StartsThreads →
        (∀ c, (Call.begin stream receivers).LeadsTo r host c →
          ∀ fault, c.caller = .returned (.error fault) →
            fault = .countOverflow ∨
            fault = .clockOverflow ∧ clockEnd ≤ c.clock + 2 * r.period.nanos) ∧
        ∀ consumer,
          let result := ticker.run consumer stream
          ∃ c, (Call.begin stream receivers).LeadsTo r host c ∧
            result.1.handedOver result.2 = stream.queue ++ c.handedOver ∧
            (∀ outcome, result.1.state = .over outcome ↔ c.caller = .returned outcome) ∧
            ((∃ fault, result.1.state = .over (.error fault) ∧ fault.report =
                ⟨.ticker, "worker ticker thread panicked: attempt to add with overflow"⟩) ↔
              ∃ n, r.TooManyAt ((result.1.handedOver result.2).drop stream.queue.length) n)) := by
  have sound : (Call.begin stream receivers).Sound r host := Call.sound_begin opened receivers
  have fails (c : Call) (leads : (Call.begin stream receivers).LeadsTo r host c) :
      c.FailsOnlyByAddition r host :=
    (sound.leadsTo endless leads).failsOnlyByAddition endless
  refine ⟨fails, fun starts => ⟨?_, ?_⟩⟩
  · intro c leads fault returned
    rcases (fails c leads).outcome _ returned with well | overflow | ⟨ended, late⟩ | refused
    · cases well
    · exact Or.inl (Except.error.inj overflow)
    · exact Or.inr ⟨Except.error.inj ended, late⟩
    · exact absurd starts refused.not_startsThreads
  · intro consumer result
    obtain ⟨c, leads, history, over_iff, returns⟩ :=
      exists_call_of_run ramp consumer opened receivers endless starts
    have sound_last := sound.leadsTo endless leads
    refine ⟨c, leads, history, over_iff, ?_⟩
    rw [history, List.drop_left, ← sound_last.panicked_addition_iff]
    constructor
    · rintro ⟨fault, ended, reported⟩
      obtain rfl := eq_countOverflow_of_report reported
      exact (sound_last.overflow_iff ((over_iff _).mp ended)).mp rfl
    · intro panicked
      obtain ⟨outcome, returned⟩ := returns _ panicked
      have overflow := (sound_last.overflow_iff returned).mpr panicked
      exact ⟨.countOverflow, (over_iff _).mpr (overflow ▸ returned), rfl⟩

/-- One worker, then as many more as can be counted, a second later: the consumer takes the second
tick from the hand of the thread, and the thread cannot add it. -/
theorem Ticker.fails_only_by_addition_at_second_tick :
    let r : WorkerRamp :=
      { start := 1, step := 9223372036854775807, period := .ofSeconds 1
        step_ne_zero := by decide, period_ne_zero := by decide }
    let stream : TickStream := { capacity := 0 }
    (Ticker.step ⟨r⟩).ramp? = some r ∧ stream.closed = false ∧
      Host.reliable.timer.Endless ∧ Host.reliable.StartsThreads ∧
      ∃ c, (Call.begin stream 1).perform r .reliable
          [.take, .caller, .thread, .pass 1000000000, .thread, .take, .caller, .caller] = some c ∧
        c.handedOver = [⟨1, false⟩, ⟨9223372036854775807, false⟩] ∧
        c.caller = .returned (.error .countOverflow) ∧ c.StopsAt r .reliable 1 ∧
        ∀ fault, c.caller = .returned (.error fault) →
          fault = .countOverflow ∨
          fault = .clockOverflow ∧ clockEnd ≤ c.clock + 2 * r.period.nanos := by
  intro r stream
  have ramp : (Ticker.step ⟨r⟩).ramp? = some r := rfl
  have opened : stream.closed = false := rfl
  have performed : (Call.begin stream 1).perform r .reliable
      [.take, .caller, .thread, .pass 1000000000, .thread, .take, .caller, .caller] = some
        { clock := 1000000000
          stream
          holders := [.ticker, .consumer]
          caller := .returned (.error .countOverflow)
          thread := .panicked .addition
          handedOver := [⟨1, false⟩, ⟨9223372036854775807, false⟩] } := by
    dsimp only [r, stream]
    rfl
  have tooMany : r.TooManyAt [⟨1, false⟩, ⟨9223372036854775807, false⟩] 1 :=
    ⟨Nat.le_refl 1, _, rfl, rfl, by decide⟩
  obtain ⟨calls, started⟩ := fails_only_by_addition ramp opened 1 Host.endless_reliable
  have stops := (calls _ ⟨_, performed⟩).stops 1 tooMany
  have noOther := (started Host.startsThreads_reliable).1 _ ⟨_, performed⟩
  exact ⟨ramp, opened, Host.endless_reliable, Host.startsThreads_reliable, _, performed, rfl, rfl,
    stops, noOther⟩

end LoadShape.Workers
