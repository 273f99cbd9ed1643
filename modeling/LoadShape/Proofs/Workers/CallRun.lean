import LoadShape.Proofs.Workers.CallInvariant
import LoadShape.Proofs.Workers.FreshRun

/-!
# A run is a call

What a ticker and its consumer do in a run, one after the other, is one of the orders in which the
parties of a call can do it.  Every step of the run is a few moves of the call.
-/

namespace LoadShape.Workers

open LoadShape.Time

/-! ## Moves that follow one another -/

namespace Call

variable {r : WorkerRamp} {host : Host} {c next last : Call}

/-- Some moves lead from one call to the other. -/
def LeadsTo (r : WorkerRamp) (host : Host) (c next : Call) : Prop :=
  ∃ moves, c.perform r host moves = some next

theorem LeadsTo.refl (r : WorkerRamp) (host : Host) (c : Call) : c.LeadsTo r host c :=
  ⟨[], rfl⟩

theorem LeadsTo.head {move : Move} (moved : c.move? r host move = some next)
    (leads : next.LeadsTo r host last) : c.LeadsTo r host last := by
  obtain ⟨moves, performed⟩ := leads
  refine ⟨move :: moves, ?_⟩
  rw [perform, moved]
  exact performed

theorem LeadsTo.trans (first : c.LeadsTo r host next) (rest : next.LeadsTo r host last) :
    c.LeadsTo r host last := by
  obtain ⟨moves, performed⟩ := first
  induction moves generalizing c with
  | nil =>
      cases performed
      exact rest
  | cons move moves ih =>
      obtain ⟨after, moved, further⟩ := Option.bind_eq_some_iff.mp performed
      exact (ih further).head moved

/-- The call after it has handed a tick over, the next one being due at `due` and the workers
without the tick being `workers`. -/
def afterHandover (c : Call) (tick : Tick) (due : Nat) (workers : Int) : Call :=
  { c with
    caller := .waiting
    thread := .afterSending tick due workers
    handedOver := c.handedOver ++ [tick] }

/-- After the first tick the caller starts the thread. -/
theorem leadsTo_started (starts : host.StartsThreads) (asks : c.caller = .starting) :
    c.LeadsTo r host
      { c with caller := .waiting, thread := .asking r.period.nanos r.start.toNat } := by
  refine ⟨[.caller], ?_⟩
  simp only [perform, move?, callerMove?, asks, starts c.clock, Option.bind_some]

theorem Sound.leadsTo (sound : c.Sound r host) (endless : host.timer.Endless)
    (leads : c.LeadsTo r host next) : next.Sound r host := by
  obtain ⟨moves, performed⟩ := leads
  exact sound.perform endless performed

end Call

/-! ## One step of a run -/

/-- What the ticker of a run is doing, as it looks to the threads of a call. -/
inductive Phase.Mirrors (r : WorkerRamp) :
    Phase → Caller → Thread → Option (Except TickerFault Unit) → Prop where
  | waiting {due : Nat} {workers : Int} :
      Mirrors r (.waiting due workers) .waiting (.asking due workers) none
  | greeting : Mirrors r (.offering r.firstTick r.period.nanos 0) .greeting .unstarted none
  | offering {tick : Tick} {due : Nat} {workers : Int} :
      Mirrors r (.offering tick due workers) .waiting (.sending tick due workers) none
  | ended {outcome : Except TickerFault Unit} {thread : Thread} :
      Mirrors r (.ended outcome) (.returned outcome) thread none

/-- The run is over exactly if the call has returned. -/
theorem Phase.Mirrors.over_iff {r : WorkerRamp} {phase : Phase} {caller : Caller} {thread : Thread}
    {report? : Option (Except TickerFault Unit)} (mirrors : phase.Mirrors r caller thread report?)
    (outcome : Except TickerFault Unit) :
    (match phase with
      | .ended outcome => RunState.over outcome
      | _ => .running) = .over outcome ↔ caller = .returned outcome := by
  cases mirrors with
  | waiting => simp
  | greeting => simp
  | offering => simp
  | ended => simp

/-- A run does not rest while the caller has yet to find that its thread has panicked. -/
theorem Phase.Mirrors.returned {r : WorkerRamp} {phase : Phase} {caller : Caller} {panic : Panic}
    {report? : Option (Except TickerFault Unit)}
    (mirrors : phase.Mirrors r caller (.panicked panic) report?) :
    ∃ outcome, caller = .returned outcome := by
  cases mirrors with
  | ended => exact ⟨_, rfl⟩

/-- The run and the call are at the same point: after the ticks that were `taken`, of a stream
that held the ticks `held` when they began. -/
structure Run.Mirrors (r : WorkerRamp) (capacity : Nat) (held taken : List Tick) (run : Run)
    (c : Call) : Prop where
  clock : c.clock = run.clock
  capacity : c.stream.capacity = capacity
  queue : c.stream.queue = run.queue
  history : taken ++ run.queue = held ++ c.handedOver
  phase : run.phase.Mirrors r c.caller c.thread c.report?

namespace Run

variable {r : WorkerRamp} {host : Host} {capacity due : Nat} {held taken : List Tick}
  {run after : Run} {c : Call} {tick : Tick} {workers : Int}

/-- After a handover the thread goes on as the run does; if the run is over, then the call
returns. -/
theorem mirrors_afterHandover (host : Host) (staffed : countMin ≤ workers + tick.delta)
    (waits : c.caller = .waiting) (silent : c.report? = none)
    (works : c.thread = .afterSending tick due workers) :
    ∃ next, c.LeadsTo r host next ∧ next.clock = c.clock ∧ next.stream = c.stream ∧
      next.handedOver = c.handedOver ∧
      (Phase.afterHandover tick due workers).Mirrors r next.caller next.thread next.report? := by
  obtain ⟨clock, stream, holders, caller, thread, report?, ticks⟩ := c
  dsimp only at waits silent works
  subst waits silent works
  cases done : tick.done with
  | true =>
      refine ⟨⟨clock, stream, holders, .returned (.ok ()), .finished, none, ticks⟩,
        ⟨[.thread, .thread, .caller, .caller], ?_⟩, rfl, rfl, rfl, ?_⟩
      · simp only [Thread.afterSending, done, if_true]
        rfl
      · simp only [Phase.afterHandover, done, if_true]
        exact .ended
  | false =>
      by_cases counted : IsCount (workers + tick.delta)
      · have inRange : ¬ countMax < workers + tick.delta := Int.not_lt.mpr counted.2
        refine ⟨_, .refl r host _, rfl, rfl, rfl, ?_⟩
        simp only [Phase.afterHandover, Thread.afterSending, done, checked_of_isCount counted,
          if_neg inRange, Bool.false_eq_true, if_false]
        exact .waiting
      · have tooMany : countMax < workers + tick.delta :=
          Int.not_le.mp fun fits => counted ⟨staffed, fits⟩
        refine ⟨⟨clock, stream, holders, .returned (.error .countOverflow), .panicked .addition,
          none, ticks⟩, ⟨[.caller, .caller], ?_⟩, rfl, rfl, rfl, ?_⟩
        · simp only [Thread.afterSending, done, checked_of_not_isCount counted,
            Bool.false_eq_true, if_false]
          rfl
        · simp only [Phase.afterHandover, done, if_pos tooMany, Bool.false_eq_true, if_false]
          exact .ended

/-- What a run offers the call hands over: its first tick by the caller, which then starts the
thread, and every other one by the thread. -/
theorem Mirrors.offers (mirrors : run.Mirrors r capacity held taken c) (sound : c.Sound r host)
    (starts : host.StartsThreads) (offering : run.phase = .offering tick due workers) :
    countMin ≤ workers + tick.delta ∧ c.report? = none ∧
      ∃ handed, c.handOver? r = some (tick, handed) ∧ handed.stream = c.stream ∧
        (∀ stream, ({ handed with stream } : Call).LeadsTo r host
          (({ c with stream } : Call).afterHandover tick due workers)) ∧
        ∃ move, c.move? r host move = c.send? r := by
  have connected := sound.connected
  have phase := mirrors.phase
  obtain ⟨-, works, -⟩ := sound
  obtain ⟨clock, stream, holders, caller, thread, report?, ticks⟩ := c
  rw [offering] at phase
  dsimp only at phase works connected
  have least : countMin ≤ 0 := by decide
  cases phase with
  | greeting =>
      have first : IsCount (0 + r.firstTick.delta) := by
        rw [Int.zero_add]
        exact ⟨least.trans (Int.natCast_nonneg _), WorkerRamp.counts_first.le⟩
      have begins : Thread.afterSending r.firstTick r.period.nanos 0 =
          .asking r.period.nanos r.start.toNat := by
        rw [Thread.afterSending, checked_of_isCount first, Int.zero_add]
        rfl
      refine ⟨first.1, rfl, _, rfl, rfl, fun stream => ?_, .caller, ?_⟩
      · rw [Call.afterHandover, begins]
        exact Call.leadsTo_started starts rfl
      · simp only [Call.move?, Call.callerMove?, connected, Bool.false_eq_true, if_false]
  | offering =>
      cases works with
      | sending counts soon =>
          refine ⟨least.trans (WorkerRamp.add_delta_nonneg counts.nonneg _), rfl, _, rfl, rfl,
            fun stream => .refl r host _, .thread, ?_⟩
          simp only [Call.move?, Call.threadMove?, connected, Bool.false_eq_true, if_false]

/-- A thread that asks its timer gets to its next tick, or panics if that is out of range. -/
theorem Mirrors.ask (mirrors : run.Mirrors r capacity held taken c) (sound : c.Sound r host)
    (endless : host.timer.Endless) (waiting : run.phase = .waiting due workers)
    (step : run.step? r.source capacity = some after) :
    ∃ next, c.LeadsTo r host next ∧ after.Mirrors r capacity held taken next := by
  obtain ⟨clock, room, queue, history, phase⟩ := mirrors
  obtain ⟨-, works, -⟩ := sound
  obtain ⟨now, stream, holders, caller, thread, report?, ticks⟩ := c
  dsimp only at clock room queue history phase works
  subst clock
  rw [waiting] at phase
  cases phase with
  | waiting =>
    cases works with
    | asking counts soon =>
      simp only [step?, waiting] at step
      have period : r.source.period = r.period.nanos := rfl
      rw [period] at step
      split at step
      · next late =>
          cases step
          refine ⟨⟨_, stream, holders, .returned (.error .clockOverflow), .panicked .instant, none,
            ticks⟩, ⟨[.thread, .caller, .caller], ?_⟩, rfl, room, queue, history, .ended⟩
          simp only [Call.perform, Call.move?, Call.threadMove?, endless run.clock, if_pos late,
            Bool.false_eq_true, if_false, Option.bind_some]
          rfl
      · next onClock =>
          cases step
          have awake : run.clock + (max due run.clock - run.clock) = max due run.clock :=
            Nat.add_sub_cancel' (Nat.le_max_right _ _)
          refine ⟨⟨max due run.clock, stream, holders, .waiting,
            .sending (r.tickAt workers (max due run.clock)) (max due run.clock + r.period.nanos)
              workers, none, ticks⟩,
            ⟨[.thread, .pass (max due run.clock - run.clock), .thread], ?_⟩, rfl, room, queue,
            history, .offering⟩
          simp only [Call.perform, Call.move?, Call.threadMove?, endless run.clock, if_neg onClock,
            Bool.false_eq_true, if_false, Option.bind_some, awake, Nat.le_refl, if_true,
            WorkerRamp.tickChecked_eq counts.nonneg counts.le]

/-- A tick that finds room is handed over to the stream. -/
theorem Mirrors.put (mirrors : run.Mirrors r capacity held taken c) (sound : c.Sound r host)
    (starts : host.StartsThreads) (offering : run.phase = .offering tick due workers)
    (room : run.queue.length < capacity) :
    let handedOver : Run :=
      { run with queue := run.queue ++ [tick], phase := .afterHandover tick due workers }
    ∃ next, c.LeadsTo r host next ∧ handedOver.Mirrors r capacity held taken next := by
  obtain ⟨staffed, silent, handed, hands, -, goesOn, move, sends⟩ :=
    mirrors.offers sound starts offering
  have sent : c.move? r host move = some { handed with stream := c.stream.put tick } := by
    have fits : c.stream.hasRoom = true := by
      rw [TickStream.hasRoom, mirrors.queue, mirrors.capacity]
      exact decide_eq_true room
    rw [sends, Call.send?, if_pos fits, hands]
    rfl
  obtain ⟨next, leads, clock, stream, ticks, phase⟩ := mirrors_afterHandover host
    (c := { c.afterHandover tick due workers with stream := c.stream.put tick })
    staffed rfl silent rfl
  refine ⟨next, ((goesOn _).trans leads).head sent, clock.trans mirrors.clock, ?_, ?_, ?_, phase⟩
  · rw [stream]
    exact mirrors.capacity
  · rw [stream]
    exact congrArg (· ++ [tick]) mirrors.queue
  · rw [ticks, ← List.append_assoc, mirrors.history]
    exact List.append_assoc _ _ _

theorem Mirrors.step (mirrors : run.Mirrors r capacity held taken c) (sound : c.Sound r host)
    (endless : host.timer.Endless) (starts : host.StartsThreads)
    (step : run.step? r.source capacity = some after) :
    ∃ next, c.LeadsTo r host next ∧ after.Mirrors r capacity held taken next := by
  cases phase : run.phase with
  | waiting due workers => exact mirrors.ask sound endless phase step
  | offering tick due workers =>
      simp only [step?, phase] at step
      split at step
      · next room =>
          cases step
          exact mirrors.put sound starts phase room
      · cases step
  | ended outcome =>
      simp only [step?, phase] at step
      cases step

theorem Mirrors.settle (mirrors : run.Mirrors r capacity held taken c) (sound : c.Sound r host)
    (endless : host.timer.Endless) (starts : host.StartsThreads) :
    ∃ next, c.LeadsTo r host next ∧
      (run.settle r.source capacity).Mirrors r capacity held taken next := by
  induction run using settle.induct r.source capacity generalizing c with
  | case1 run after step ih =>
      obtain ⟨middle, leads, mirrors_after⟩ := mirrors.step sound endless starts step
      obtain ⟨next, further, settled⟩ := ih mirrors_after (sound.leadsTo endless leads)
      rw [settle_of_step step]
      exact ⟨next, leads.trans further, settled⟩
  | case2 run stuck =>
      rw [settle_of_stuck stuck]
      exact ⟨c, .refl r host c, mirrors⟩

/-- The consumer's time passes for the call. -/
theorem Mirrors.delay (host : Host) (mirrors : run.Mirrors r capacity held taken c)
    (passed : Nat) :
    ∃ next, c.LeadsTo r host next ∧ (run.delay passed).Mirrors r capacity held taken next := by
  refine ⟨{ c with clock := c.clock + passed }, ⟨[.pass passed], rfl⟩, ?_⟩
  exact ⟨congrArg (· + passed) mirrors.clock, mirrors.capacity, mirrors.queue, mirrors.history,
    mirrors.phase⟩

/-- A tick that the consumer takes from the run it takes from the call. -/
theorem Mirrors.take (mirrors : run.Mirrors r capacity held taken c) (sound : c.Sound r host)
    (starts : host.StartsThreads) (found : run.take? = some (tick, after)) :
    ∃ next, c.LeadsTo r host next ∧ after.Mirrors r capacity held (taken ++ [tick]) next := by
  unfold take? at found
  split at found
  · next first rest front =>
      cases found
      have stocked : c.stream.queue = tick :: rest := mirrors.queue.trans front
      have moved : c.move? r host .take =
          some { c with stream := { c.stream with queue := rest } } := by
        simp only [Call.move?, Call.take?, stocked]
      refine ⟨_, (Call.LeadsTo.refl r host _).head moved, mirrors.clock, mirrors.capacity, ?_, ?_,
        mirrors.phase⟩
      · rfl
      · rw [List.append_assoc, List.singleton_append, ← front]
        exact mirrors.history
  · next empty =>
      split at found
      · next offered due workers offering =>
          cases found
          obtain ⟨staffed, silent, handed, hands, same_stream, goesOn, -⟩ :=
            mirrors.offers sound starts offering
          have none_stocked : c.stream.queue = [] := mirrors.queue.trans empty
          have moved : c.move? r host .take = some handed := by
            simp only [Call.move?, Call.take?, none_stocked, hands, Option.map_some]
          have same : ({ handed with stream := c.stream } : Call) = handed := by
            rw [← same_stream]
          have onward : handed.LeadsTo r host (c.afterHandover tick due workers) :=
            same ▸ goesOn c.stream
          obtain ⟨next, leads, clock, stream, ticks, phase⟩ := mirrors_afterHandover host
            (c := c.afterHandover tick due workers) staffed rfl silent rfl
          have history := mirrors.history
          rw [empty, List.append_nil] at history
          refine ⟨next, (onward.trans leads).head moved, clock.trans mirrors.clock, ?_, ?_, ?_,
            phase⟩
          · rw [stream]
            exact mirrors.capacity
          · rw [stream]
            exact mirrors.queue
          · rw [ticks, empty, List.append_nil, history]
            exact List.append_assoc _ _ _
      · cases found

/-! ## All of a run -/

/-- What a consumer takes from the run it takes from the call. -/
theorem Mirrors.consume (limit : Nat) (delays : List Nat) (count : Int)
    (mirrors : run.Mirrors r capacity held taken c) (sound : c.Sound r host)
    (endless : host.timer.Endless) (starts : host.StartsThreads) :
    let result := consume r.source capacity limit delays count run
    ∃ next, c.LeadsTo r host next ∧
      result.2.Mirrors r capacity held (taken ++ result.1.map (·.tick)) next := by
  induction limit generalizing delays count run c taken with
  | zero =>
      refine ⟨c, .refl r host c, ?_⟩
      rw [Workers.consume]
      simpa using mirrors
  | succ limit ih =>
      obtain ⟨delayed, leads, mirrors_delayed⟩ := mirrors.delay host (delays.headD 0)
      have sound_delayed := sound.leadsTo endless leads
      rw [Workers.consume]
      cases found : (run.delay (delays.headD 0)).take? with
      | none =>
          refine ⟨c, .refl r host c, ?_⟩
          simpa using mirrors
      | some pair =>
          obtain ⟨tick, after⟩ := pair
          obtain ⟨taking, takes, mirrors_taken⟩ :=
            mirrors_delayed.take sound_delayed starts found
          have sound_taken := sound_delayed.leadsTo endless takes
          obtain ⟨settling, settles, mirrors_settled⟩ :=
            mirrors_taken.settle sound_taken endless starts
          have sound_settled := sound_taken.leadsTo endless settles
          have begins := (leads.trans takes).trans settles
          dsimp only
          split
          · exact ⟨settling, begins, mirrors_settled⟩
          · obtain ⟨next, further, mirrors_last⟩ := ih delays.tail _ mirrors_settled sound_settled
            refine ⟨next, begins.trans further, ?_⟩
            rw [List.append_assoc] at mirrors_last
            exact mirrors_last

/-- A run and a call begin at the same point. -/
theorem mirrors_initial {stream : TickStream} (opened : stream.closed = false) (receivers : Nat) :
    (initial r.source stream.queue).Mirrors r stream.capacity stream.queue []
      (.begin stream receivers) := by
  refine ⟨rfl, rfl, rfl, (List.append_nil _).symm, ?_⟩
  simp only [Call.begin, opened, Bool.false_eq_true, if_false]
  exact .greeting

end Run

/-- Every run of a ramp on an open stream is a call whose thread was started: the same ticks are
handed over, and the run is over with the outcome with which the call has returned, as it has if its
thread has panicked. -/
theorem Ticker.exists_call_of_run {ticker : Ticker} {r : WorkerRamp}
    (ramp : ticker.ramp? = some r) (consumer : Consumer) {stream : TickStream}
    (opened : stream.closed = false) (receivers : Nat) {host : Host}
    (endless : host.timer.Endless) (starts : host.StartsThreads) :
    let result := ticker.run consumer stream
    ∃ c, (Call.begin stream receivers).LeadsTo r host c ∧
      result.1.handedOver result.2 = stream.queue ++ c.handedOver ∧
      (∀ outcome, result.1.state = .over outcome ↔ c.caller = .returned outcome) ∧
      ∀ panic, c.thread = .panicked panic → ∃ outcome, c.caller = .returned outcome := by
  intro result
  have sound : (Call.begin stream receivers).Sound r host := Call.sound_begin opened receivers
  obtain ⟨settled, leads, mirrors⟩ :=
    (Run.mirrors_initial (r := r) opened receivers).settle sound endless starts
  obtain ⟨c, further, last⟩ := mirrors.consume consumer.limit consumer.delays 0
    (sound.leadsTo endless leads) endless starts
  have run_eq : result = ticker.run consumer stream := rfl
  simp only [run, opened, source_of_ramp? ramp, Bool.false_eq_true, if_false] at run_eq
  rw [run_eq]
  refine ⟨c, leads.trans further, last.history, last.phase.over_iff, ?_⟩
  intro panic panicked
  have phase := last.phase
  rw [panicked] at phase
  exact phase.returned

end LoadShape.Workers
