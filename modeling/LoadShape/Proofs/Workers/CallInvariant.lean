import LoadShape.Proofs.Workers.WorkerCount
import LoadShape.Workers.TickerCall

/-!
# What a call keeps to

Whatever its parties do in whatever order, a call has handed over the first steps of its ramp, the
workers that its thread counts are those after the last of these steps, and its caller and its
thread wait for each other in a few ways only.
-/

namespace LoadShape.Workers

open LoadShape.Time

/-- A timer that is never cut off, as a timer with a period is documented to be. -/
def Timer.Endless (timer : Timer) : Prop := ∀ instant, timer.cutOff instant = false

/-- The system starts every thread that it is asked for. -/
def Host.StartsThreads (host : Host) : Prop := ∀ instant, host.refusal? instant = none

theorem Host.endless_reliable : Host.reliable.timer.Endless := fun _ => rfl

theorem Host.startsThreads_reliable : Host.reliable.StartsThreads := fun _ => rfl

/-! ## Steps in checked arithmetic -/

namespace WorkerRamp

variable {r : WorkerRamp} {workers : Int} {n elapsed : Nat}

/-- As many workers as can be counted have a negative, and a distance to the target. -/
theorem isCount_neg (staffed : 0 ≤ workers) (counted : workers ≤ countMax) :
    IsCount (-workers) := by
  unfold IsCount countMin countMax Number.signedMin Number.signedMax at *
  omega

theorem isCount_target_sub (staffed : 0 ≤ workers) (counted : workers ≤ countMax) :
    IsCount (r.target.toNat - workers) := by
  have target := r.target.toNat_lt
  unfold IsCount countMin countMax Number.signedMin Number.signedMax at *
  omega

/-- No operation of a step overflows as long as the workers can be counted. -/
theorem tickChecked_eq (staffed : 0 ≤ workers) (counted : workers ≤ countMax) (elapsed : Nat) :
    r.tickChecked workers elapsed = .ok (r.tickAt workers elapsed) := by
  have step : r.stepChecked workers = .ok (r.stepFrom workers) := by
    rw [stepChecked, stepFrom, checked_of_isCount (isCount_neg staffed counted)]
    split <;> rfl
  have correction : r.correctionChecked workers = .ok (r.correction workers) := by
    rw [correctionChecked, correction, checked_of_isCount (isCount_target_sub staffed counted)]
    split <;> rfl
  unfold tickChecked tickAt
  rw [step, correction]
  cases r.budget? with
  | some budget => exact (apply_ite Except.ok _ _ _).symm
  | none => exact (apply_ite Except.ok _ _ _).symm

/-- A tick that is not the last one is the next step. -/
theorem tickAt_of_not_done (goesOn : (r.tickAt (r.workersAfter n) elapsed).done = false) :
    r.tickAt (r.workersAfter n) elapsed = r.stepTick (n + 1) := by
  by_cases ends : r.EndsAt (fun _ => elapsed) (n + 1)
  · rw [tickAt_of_endsAt ends] at goesOn
    cases goesOn
  · exact tickAt_of_not_endsAt ends

/-- A step leads from the workers before it to those after it. -/
theorem workersAfter_add_stepTick (n : Nat) :
    r.workersAfter n + (r.stepTick (n + 1)).delta = r.workersAfter (n + 1) := by
  rw [stepTick, if_neg (Nat.succ_ne_zero n), Nat.add_sub_cancel]
  simp only
  omega

/-- If the workers after a step can be counted, so can those of all steps before it. -/
theorem steps_le_countMax {k : Nat} (le : k ≤ n) (counted : r.workersAfter n ≤ countMax) :
    r.start.toNat + k * r.step.toInt ≤ countMax := by
  have start := r.start.toNat_lt
  rcases Int.lt_or_le r.step.toInt 0 with down | up
  · have removed : (k : Int) * r.step.toInt ≤ 0 :=
      Int.mul_nonpos_of_nonneg_of_nonpos (Int.natCast_nonneg k) down.le
    unfold countMax Number.signedMax
    omega
  · have fewer : (k : Int) * r.step.toInt ≤ n * r.step.toInt :=
      Int.mul_le_mul_of_nonneg_right (by exact_mod_cast le) up
    unfold workersAfter at counted
    omega

/-! ## Ticks that were handed over -/

/-- The first `n` ticks of a ramp that goes on. -/
def stepTicks (r : WorkerRamp) (n : Nat) : List Tick := (List.range n).map r.stepTick

theorem stepTicks_succ (n : Nat) : r.stepTicks (n + 1) = r.stepTicks n ++ [r.stepTick n] := by
  rw [stepTicks, List.range_succ, List.map_append]
  rfl

theorem length_stepTicks (n : Nat) : (r.stepTicks n).length = n := by
  rw [stepTicks, List.length_map, List.length_range]

theorem not_done_of_mem_stepTicks {tick : Tick} (member : tick ∈ r.stepTicks n) :
    tick.done = false := by
  obtain ⟨k, -, rfl⟩ := List.mem_map.mp member
  exact stepTick_done k

/-- The ticks are steps, with `workers` after the last of them, as many as can be counted. -/
def Counts (r : WorkerRamp) (ticks : List Tick) (workers : Int) : Prop :=
  ∃ n, ticks = r.stepTicks (n + 1) ∧ workers = r.workersAfter n ∧ r.workersAfter n ≤ countMax

/-- The ticks are steps and a last tick. -/
def Completes (r : WorkerRamp) (ticks : List Tick) : Prop :=
  ∃ steps workers last, r.Counts steps workers ∧ ticks = steps ++ [last] ∧ last.done = true

/-- The ticks are steps, and after the last of them, and only then, there are more workers than
can be counted. -/
def Overflows (r : WorkerRamp) (ticks : List Tick) : Prop :=
  ∃ n, ticks = r.stepTicks (n + 1 + 1) ∧ r.workersAfter n ≤ countMax ∧
    countMax < r.workersAfter (n + 1)

variable {ticks : List Tick}

theorem Counts.nonneg (counts : r.Counts ticks workers) : 0 ≤ workers := by
  obtain ⟨n, -, rfl, -⟩ := counts
  exact workersAfter_nonneg n

theorem Counts.le (counts : r.Counts ticks workers) : workers ≤ countMax := by
  obtain ⟨n, -, rfl, counted⟩ := counts
  exact counted

/-- The first tick can be counted. -/
theorem counts_first : r.Counts [r.firstTick] r.start.toNat := by
  refine ⟨0, rfl, workersAfter_zero.symm, ?_⟩
  have start := r.start.toNat_lt
  rw [workersAfter_zero]
  unfold countMax Number.signedMax
  omega

/-- After one more step the workers can be counted, or there are too many of them. -/
theorem Counts.step (counts : r.Counts ticks workers)
    (goesOn : (r.tickAt workers elapsed).done = false) :
    let sum := workers + (r.tickAt workers elapsed).delta
    let more := ticks ++ [r.tickAt workers elapsed]
    (IsCount sum ∧ r.Counts more sum) ∨ (¬ IsCount sum ∧ r.Overflows more) := by
  intro sum more
  obtain ⟨n, rfl, rfl, counted⟩ := counts
  have next : r.tickAt (r.workersAfter n) elapsed = r.stepTick (n + 1) := tickAt_of_not_done goesOn
  have ticks : more = r.stepTicks (n + 1 + 1) := by
    simp only [more, next]
    exact (stepTicks_succ (n + 1)).symm
  have after : sum = r.workersAfter (n + 1) := by
    simp only [sum, next]
    exact workersAfter_add_stepTick n
  have staffed : 0 ≤ r.workersAfter (n + 1) := workersAfter_nonneg (n + 1)
  have least : countMin ≤ 0 := by decide
  rw [after]
  by_cases fits : r.workersAfter (n + 1) ≤ countMax
  · exact Or.inl ⟨⟨Int.le_trans least staffed, fits⟩, n + 1, ticks, rfl, fits⟩
  · exact Or.inr ⟨fun more => fits more.2, n, ticks, counted, Int.not_le.mp fits⟩

end WorkerRamp

/-! ## The invariant -/

/-- What a thread is doing goes with the time and the ticks that were handed over. -/
inductive Thread.Fits (r : WorkerRamp) (clock : Nat) (ticks : List Tick) : Thread → Prop where
  | unstarted (early : ticks.length ≤ 1) : Fits r clock ticks .unstarted
  | asking {due : Nat} {workers : Int} (counts : r.Counts ticks workers)
      (soon : due ≤ clock + r.period.nanos) : Fits r clock ticks (.asking due workers)
  | asleep {wake : Nat} {workers : Int} (counts : r.Counts ticks workers) :
      Fits r clock ticks (.asleep wake workers)
  | sending {due elapsed : Nat} {workers : Int} (counts : r.Counts ticks workers)
      (soon : due ≤ clock + r.period.nanos) :
      Fits r clock ticks (.sending (r.tickAt workers elapsed) due workers)
  | reporting (completes : r.Completes ticks) : Fits r clock ticks (.reporting (.ok ()))
  | leaving (completes : r.Completes ticks) : Fits r clock ticks .leaving
  | finished (completes : r.Completes ticks) : Fits r clock ticks .finished
  | overflowed (overflows : r.Overflows ticks) : Fits r clock ticks (.panicked .addition)
  | outOfTime {workers : Int} (counts : r.Counts ticks workers)
      (late : clockEnd ≤ clock + 2 * r.period.nanos) : Fits r clock ticks (.panicked .instant)

/-- The thread has been started and has not reported. -/
def Thread.Active : Thread → Prop
  | .unstarted | .leaving | .finished => False
  | .asking _ _ | .asleep _ _ | .sending _ _ _ | .reporting _ | .panicked _ => True

/-- The thread has reported. -/
def Thread.Through : Thread → Prop
  | .leaving | .finished => True
  | .unstarted | .asking _ _ | .asleep _ _ | .sending _ _ _ | .reporting _ | .panicked _ => False

/-- What the caller is doing goes with the ticks that were handed over, the thread and the
report. -/
inductive Caller.Fits (r : WorkerRamp) (host : Host) (ticks : List Tick) :
    Thread → Option (Except TickerFault Unit) → Caller → Prop where
  | greeting (none_handed : ticks = []) : Fits r host ticks .unstarted none .greeting
  | starting (first : ticks = [r.firstTick]) : Fits r host ticks .unstarted none .starting
  | refused {instant : Nat} {error : String} (first : ticks = [r.firstTick])
      (refuses : host.refusal? instant = some error) :
      Fits r host ticks .unstarted none (.returned (.error (.notStarted error)))
  | waiting {thread : Thread} (active : thread.Active) : Fits r host ticks thread none .waiting
  | reported {thread : Thread} (through : thread.Through) :
      Fits r host ticks thread (some (.ok ())) .waiting
  | joining {thread : Thread} (through : thread.Through) :
      Fits r host ticks thread none (.joining (some (.ok ())))
  | failing {panic : Panic} : Fits r host ticks (.panicked panic) none (.joining none)
  | returned : Fits r host ticks .finished none (.returned (.ok ()))
  | failed {panic : Panic} :
      Fits r host ticks (.panicked panic) none (.returned (.error panic.fault))

/-- The ticker holds a receiver, and the two threads go with each other and with what was handed
over. -/
structure Call.Sound (r : WorkerRamp) (host : Host) (c : Call) : Prop where
  held : .ticker ∈ c.holders
  thread : c.thread.Fits r c.clock c.handedOver
  caller : c.caller.Fits r host c.handedOver c.thread c.report?

variable {r : WorkerRamp} {host : Host} {clock due : Nat} {ticks : List Tick}
  {thread : Thread} {report? : Option (Except TickerFault Unit)} {caller : Caller}

/-- Time that passes changes nothing. -/
theorem Thread.Fits.later {now : Nat} (fits : thread.Fits r clock ticks) (le : clock ≤ now) :
    thread.Fits r now ticks := by
  have room {due : Nat} (soon : due ≤ clock + r.period.nanos) : due ≤ now + r.period.nanos :=
    soon.trans (Nat.add_le_add_right le _)
  cases fits with
  | unstarted early => exact .unstarted early
  | asking counts soon => exact .asking counts (room soon)
  | asleep counts => exact .asleep counts
  | sending counts soon => exact .sending counts (room soon)
  | reporting completes => exact .reporting completes
  | leaving completes => exact .leaving completes
  | finished completes => exact .finished completes
  | overflowed overflows => exact .overflowed overflows
  | outOfTime counts late => exact .outOfTime counts (late.trans (Nat.add_le_add_right le _))

/-- A thread that has handed its tick over goes on, reports, or panics. -/
theorem Thread.afterSending_fits {workers : Int} {elapsed : Nat} (counts : r.Counts ticks workers)
    (soon : due ≤ clock + r.period.nanos) :
    let tick := r.tickAt workers elapsed
    (afterSending tick due workers).Fits r clock (ticks ++ [tick]) ∧
      (afterSending tick due workers).Active := by
  intro tick
  unfold afterSending
  cases done : tick.done with
  | true => exact ⟨.reporting ⟨_, workers, tick, counts, rfl, done⟩, trivial⟩
  | false =>
      rcases counts.step done with ⟨counted, more⟩ | ⟨beyond, overflows⟩
      · rw [checked_of_isCount counted]
        exact ⟨.asking more soon, trivial⟩
      · rw [checked_of_not_isCount beyond]
        exact ⟨.overflowed overflows, trivial⟩

theorem Thread.Through.not_active (through : thread.Through) : ¬ thread.Active := by
  cases thread with
  | leaving => exact id
  | finished => exact id
  | unstarted | asking | asleep | sending | reporting | panicked => cases through

/-- While the thread goes on, the caller waits for its report. -/
theorem Caller.Fits.waits (fits : caller.Fits r host ticks thread report?)
    (active : thread.Active) (calm : ∀ panic, thread ≠ .panicked panic) :
    caller = .waiting ∧ report? = none := by
  cases fits with
  | greeting | starting | refused => cases active
  | waiting => exact ⟨rfl, rfl⟩
  | reported through => exact absurd active through.not_active
  | joining through => exact absurd active through.not_active
  | failing => exact absurd rfl (calm _)
  | returned => cases active
  | failed => exact absurd rfl (calm _)

namespace Call

variable {c next : Call} {tick : Tick}

/-! ## One move -/

/-- The first tick is handed over by the caller, and every other one by the thread. -/
theorem handOver?_cases (handed : c.handOver? r = some (tick, next)) :
    c.caller = .greeting ∧ tick = r.firstTick ∧
        next = { c with caller := .starting, handedOver := c.handedOver ++ [tick] } ∨
      ∃ due workers, c.thread = .sending tick due workers ∧
        next = { c with
          thread := .afterSending tick due workers
          handedOver := c.handedOver ++ [tick] } := by
  unfold handOver? at handed
  split at handed
  · next greets =>
      cases handed
      exact Or.inl ⟨greets, rfl, rfl⟩
  · next works _ =>
      cases handed
      exact Or.inr ⟨_, _, works, rfl⟩
  · cases handed

theorem Sound.unstarted (sound : c.Sound r host) (greets : c.caller = .greeting) :
    c.thread = .unstarted ∧ c.report? = none ∧ c.handedOver = [] := by
  have caller := sound.caller
  rw [greets] at caller
  generalize c.thread = thread at caller
  generalize c.report? = report? at caller
  cases caller with
  | greeting none_handed => exact ⟨rfl, rfl, none_handed⟩

theorem Sound.handOver (sound : c.Sound r host) (handed : c.handOver? r = some (tick, next)) :
    next.Sound r host := by
  rcases handOver?_cases handed with ⟨greets, rfl, rfl⟩ | ⟨due, workers, works, rfl⟩
  · obtain ⟨idle, silent, none_handed⟩ := sound.unstarted greets
    have first : c.handedOver ++ [r.firstTick] = [r.firstTick] := by
      rw [none_handed, List.nil_append]
    refine ⟨sound.held, ?_, ?_⟩
    · dsimp only
      rw [idle, first]
      exact .unstarted (Nat.le_refl 1)
    · dsimp only
      rw [idle, silent]
      exact .starting first
  · obtain ⟨held, thread, caller⟩ := sound
    rw [works] at thread caller
    obtain ⟨waits, silent⟩ := caller.waits trivial (by simp)
    cases thread with
    | sending counts soon =>
        obtain ⟨fits, goesOn⟩ := Thread.afterSending_fits counts soon
        refine ⟨held, fits, ?_⟩
        dsimp only
        rw [waits, silent]
        exact .waiting goesOn

/-- The stream makes no difference. -/
theorem Sound.with_stream (sound : c.Sound r host) (stream : TickStream) :
    ({ c with stream } : Call).Sound r host := ⟨sound.held, sound.thread, sound.caller⟩

theorem Sound.send (sound : c.Sound r host) (sent : c.send? r = some next) : next.Sound r host := by
  unfold send? at sent
  split at sent
  · obtain ⟨⟨tick, after⟩, handed, rfl⟩ := Option.map_eq_some_iff.mp sent
    exact (sound.handOver handed).with_stream _
  · cases sent

theorem Sound.take (sound : c.Sound r host) (taken : c.take? r = some next) :
    next.Sound r host := by
  unfold take? at taken
  split at taken
  · cases taken
    exact sound.with_stream _
  · obtain ⟨⟨tick, after⟩, handed, rfl⟩ := Option.map_eq_some_iff.mp taken
    exact sound.handOver handed

/-- The stream is never found without a receiver. -/
theorem Sound.connected (sound : c.Sound r host) : c.holders.isEmpty = false := by
  rw [List.isEmpty_eq_false_iff]
  exact List.ne_nil_of_mem sound.held

theorem Sound.callerMove (sound : c.Sound r host) (moved : c.callerMove? r host = some next) :
    next.Sound r host := by
  have connected := sound.connected
  obtain ⟨clock, stream, holders, caller, thread, report?, ticks⟩ := c
  obtain ⟨held, works, calls⟩ := id sound
  dsimp only at held works calls connected
  cases calls with
  | greeting =>
      simp only [callerMove?, connected, Bool.false_eq_true, if_false] at moved
      exact sound.send moved
  | starting first =>
      simp only [callerMove?] at moved
      split at moved
      · next error refuses =>
          cases moved
          exact ⟨held, works, .refused first refuses⟩
      · cases moved
        refine ⟨held, ?_, .waiting trivial⟩
        dsimp only
        rw [first]
        exact .asking WorkerRamp.counts_first (Nat.le_add_left _ _)
  | refused => cases moved
  | waiting active =>
      cases thread with
      | panicked panic =>
          cases moved
          exact ⟨held, works, .failing⟩
      | asking | asleep | sending | reporting => cases moved
      | unstarted | leaving | finished => cases active
  | reported through =>
      cases moved
      exact ⟨held, works, .joining through⟩
  | joining through =>
      cases thread with
      | finished =>
          cases moved
          exact ⟨held, works, .returned⟩
      | leaving => cases moved
      | unstarted | asking | asleep | sending | reporting | panicked => cases through
  | failing =>
      cases moved
      exact ⟨held, works, .failed⟩
  | returned => cases moved
  | failed => cases moved

theorem Sound.threadMove (sound : c.Sound r host) (endless : host.timer.Endless)
    (moved : c.threadMove? r host.timer = some next) : next.Sound r host := by
  have connected := sound.connected
  obtain ⟨clock, stream, holders, caller, thread, report?, ticks⟩ := c
  obtain ⟨held, works, calls⟩ := id sound
  dsimp only at held works calls connected
  cases works with
  | unstarted => cases moved
  | @asking due workers counts soon =>
      obtain ⟨rfl, rfl⟩ := calls.waits trivial (by simp)
      simp only [threadMove?, endless clock, Bool.false_eq_true, if_false] at moved
      split at moved
      · next late =>
          cases moved
          refine ⟨held, .outOfTime counts ?_, .waiting trivial⟩
          dsimp only
          omega
      · cases moved
        exact ⟨held, .asleep counts, .waiting trivial⟩
  | @asleep wake workers counts =>
      obtain ⟨rfl, rfl⟩ := calls.waits trivial (by simp)
      simp only [threadMove?, WorkerRamp.tickChecked_eq counts.nonneg counts.le] at moved
      split at moved
      · next awake =>
          cases moved
          exact ⟨held, .sending counts (Nat.add_le_add_right awake _), .waiting trivial⟩
      · cases moved
  | sending counts soon =>
      simp only [threadMove?, connected, Bool.false_eq_true, if_false] at moved
      exact sound.send moved
  | reporting completes =>
      obtain ⟨rfl, rfl⟩ := calls.waits trivial (by simp)
      cases moved
      exact ⟨held, .leaving completes, .reported trivial⟩
  | leaving completes =>
      cases moved
      refine ⟨held, .finished completes, ?_⟩
      cases calls with
      | waiting active => cases active
      | reported through => exact .reported trivial
      | joining through => exact .joining trivial
  | finished => cases moved
  | overflowed => cases moved
  | outOfTime => cases moved

theorem Sound.move (sound : c.Sound r host) (endless : host.timer.Endless) {move : Move}
    (moved : c.move? r host move = some next) : next.Sound r host := by
  cases move with
  | pass nanos =>
      cases moved
      exact ⟨sound.held, sound.thread.later (Nat.le_add_right _ _), sound.caller⟩
  | take => exact sound.take moved
  | put tick =>
      simp only [move?] at moved
      split at moved
      · cases moved
        exact sound.with_stream _
      · cases moved
  | close =>
      cases moved
      exact sound.with_stream _
  | share =>
      cases moved
      exact ⟨List.mem_cons_of_mem _ sound.held, sound.thread, sound.caller⟩
  | letGo =>
      cases moved
      have other : Holder.ticker ≠ .consumer := by decide
      exact ⟨(List.mem_erase_of_ne other).mpr sound.held, sound.thread, sound.caller⟩
  | caller => exact sound.callerMove moved
  | thread => exact sound.threadMove endless moved

/-! ## Many moves -/

theorem Sound.perform (sound : c.Sound r host) (endless : host.timer.Endless) {moves : List Move}
    (performed : c.perform r host moves = some next) : next.Sound r host := by
  induction moves generalizing c with
  | nil =>
      cases performed
      exact sound
  | cons move moves ih =>
      obtain ⟨after, moved, rest⟩ := Option.bind_eq_some_iff.mp performed
      exact ih (sound.move endless moved) rest

/-- A call on an open stream begins soundly. -/
theorem sound_begin {stream : TickStream} (opened : stream.closed = false) (receivers : Nat) :
    (begin stream receivers).Sound r host := by
  refine ⟨List.mem_cons_self, .unstarted (Nat.zero_le 1), ?_⟩
  simp only [begin, opened, Bool.false_eq_true, if_false]
  exact .greeting rfl

end Call

end LoadShape.Workers
