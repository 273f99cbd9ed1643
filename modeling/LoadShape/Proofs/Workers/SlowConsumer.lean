import LoadShape.Proofs.Workers.RampRun

/-!
# Slow consumers

Two runs of one ramp on streams of any capacities, for consumers with any delays.  Without
a budget they produce the same ticks; with a budget the same steps, until the budget of one
of them is spent.  The consumer with longer delays and less room gets its ticks later, and
no more of them.
-/

namespace LoadShape.Workers

open LoadShape.Time

/-! ## Later instants -/

/-- One place more in the stream lets every tick but the first be produced a period after
the tick before it was. -/
theorem producedAt_succ_capacity (period capacity : Nat) (delays : List Nat) (n : Nat) :
    producedAt period (capacity + 1) delays (n + 1) =
      producedAt period capacity delays n + period := by
  induction n with
  | zero => simp [producedAt]
  | succ n ih =>
      rw [producedAt, ih]
      conv_rhs => rw [producedAt]
      by_cases room : n < capacity
      · rw [if_pos (Nat.succ_lt_succ room), if_pos room]
      · rw [if_neg (fun more => room (Nat.lt_of_succ_lt_succ more)), if_neg room,
          Nat.add_sub_add_right]
        omega

theorem producedAt_le_of_capacity_le (period : Nat) (delays : List Nat) {narrow wide : Nat}
    (wider : narrow ≤ wide) (n : Nat) :
    producedAt period wide delays n ≤ producedAt period narrow delays n := by
  induction wider with
  | refl => exact Nat.le_refl _
  | @step wide _ ih =>
      refine Nat.le_trans ?_ ih
      cases n with
      | zero => exact Nat.le_refl _
      | succ n =>
          rw [producedAt_succ_capacity]
          exact producedAt_add_period_le period wide delays n

theorem producedAt_le_of_delays_le (period capacity : Nat) {short long : List Nat}
    (longer : ∀ i, delayBefore short i ≤ delayBefore long i) (n : Nat) :
    producedAt period capacity short n ≤ producedAt period capacity long n := by
  induction n with
  | zero => exact Nat.le_refl _
  | succ n ih =>
      rw [producedAt, producedAt]
      apply Nat.add_le_add ih
      split
      · exact Nat.le_refl _
      · have later := longer (n - capacity)
        omega

/-- Longer delays and less room move no tick to an earlier instant. -/
theorem Consumer.instants_le {quick late : Consumer} {narrow wide : Nat}
    (wider : narrow ≤ wide)
    (longer : ∀ i, delayBefore quick.delays i ≤ delayBefore late.delays i) (period n : Nat) :
    quick.instants period wide n ≤ late.instants period narrow n :=
  Nat.le_trans (producedAt_le_of_delays_le period wide longer n)
    (producedAt_le_of_capacity_le period late.delays wider n)

namespace WorkerRamp

variable {r : WorkerRamp} {quick late : Nat → Nat}

/-! ## Ramps without a budget -/

/-- Without a budget the ticks do not depend on when they are produced. -/
theorem course_of_no_budget (unlimited : r.budget? = none) (n : Nat) :
    r.source.course quick n = r.source.course late n := by
  induction n with
  | zero => rfl
  | succ n ih =>
      have anyTime (workers : Int) : r.source.following workers (quick (n + 1)) =
          r.source.following workers (late (n + 1)) := by
        change r.tickAt workers _ = r.tickAt workers _
        rw [tickAt, tickAt, unlimited]
      rw [TickSource.course, TickSource.course, ih, anyTime]

theorem tickNo_of_no_budget (unlimited : r.budget? = none) (n : Nat) :
    r.source.tickNo quick n = r.source.tickNo late n :=
  congrArg Prod.fst (course_of_no_budget unlimited n)

theorem workersBefore_of_no_budget (unlimited : r.budget? = none) (n : Nat) :
    r.source.workersBefore quick n = r.source.workersBefore late n :=
  congrArg Prod.snd (course_of_no_budget unlimited n)

/-- Without a budget only the end of the clock can end one run and not the other. -/
theorem ending?_ne_none_of_no_budget (unlimited : r.budget? = none) {n : Nat}
    {outcome : Except TickerFault Unit} (ending : r.source.ending? quick n = some outcome)
    (onClock : outcome ≠ .error .clockOverflow) : r.source.ending? late n ≠ none := by
  intro goesOn
  obtain ⟨notDone, counted, _⟩ := TickSource.ending?_eq_none_iff.mp goesOn
  rcases TickSource.ending?_eq_some_cases ending with ⟨done, _⟩ | ⟨tooMany, _⟩ | ⟨_, late⟩
  · rw [tickNo_of_no_budget unlimited n] at done
    rw [done] at notDone
    cases notDone
  · rw [workersBefore_of_no_budget unlimited (n + 1)] at tooMany
    exact absurd counted (Int.not_le.mpr tooMany)
  · exact onClock late

/-! ## Earlier runs -/

theorem EndsAt.of_le (earlier : ∀ n, quick n ≤ late n) {n : Nat} (ends : r.EndsAt quick n) :
    r.EndsAt late n := by
  rcases ends with ⟨budget, given, spent⟩ | other
  · exact Or.inl ⟨budget, given, Nat.le_trans spent (earlier n)⟩
  · exact Or.inr other

theorem Lasts.of_earlier (earlier : ∀ n, quick n ≤ late n) {n : Nat} (lasts : r.Lasts late n) :
    r.Lasts quick n :=
  fun k positive bound ends => lasts k positive bound (ends.of_le earlier)

/-- A run whose ticks are earlier gets to every step that another one gets to. -/
theorem reaches_of_earlier (earlier : ∀ n, quick n ≤ late n) {n : Nat}
    (lasts : r.Lasts late n) (reaches : r.source.Reaches late n) :
    r.source.Reaches quick n := by
  intro m below
  have lastsLate := lasts.of_le (Nat.le_of_lt below)
  obtain ⟨counted, onClock⟩ := (ending?_eq_none_iff_of_lasts lastsLate).mp (reaches m below)
  rw [ending?_eq_none_iff_of_lasts (lastsLate.of_earlier earlier)]
  exact ⟨counted, Nat.lt_of_le_of_lt (Nat.add_le_add_right (earlier (m + 1)) _) onClock⟩

end WorkerRamp

/-! ## The productions before the last tick -/

/-- The productions that are not a last tick. -/
def beforeLast (produced : List Production) : List Production :=
  produced.filter fun production => !production.tick.done

theorem beforeLast_concat (produced : List Production) (production : Production) :
    beforeLast (produced ++ [production]) =
      beforeLast produced ++ if production.tick.done then [] else [production] := by
  rw [beforeLast, List.filter_append]
  cases done : production.tick.done with
  | true => simp [beforeLast, done]
  | false => simp [beforeLast, done]

/-- If only the last one of some productions can be of a last tick, the others are those
below a number. -/
theorem TickSource.exists_beforeLast {source : TickSource} {instants : Nat → Nat} {j : Nat}
    (goOn : ∀ n, n + 1 < j → (source.tickNo instants n).done = false) :
    ∃ steps, beforeLast (source.productionsFrom instants 0 j) =
        source.productionsFrom instants 0 steps ∧
      ∀ n, n < steps ↔ n < j ∧ (source.tickNo instants n).done = false := by
  cases j with
  | zero => exact ⟨0, rfl, fun n => by simp⟩
  | succ m =>
      have front : beforeLast (source.productionsFrom instants 0 m) =
          source.productionsFrom instants 0 m := by
        apply List.filter_eq_self.mpr
        intro production member
        obtain ⟨n, there, rfl⟩ := List.mem_map.mp member
        have below := (List.mem_range'_1.mp there).2
        rw [goOn n (by omega)]
        rfl
      have whole : source.productionsFrom instants 0 m ++
          source.productionsFrom instants m (m + 1) = source.productionsFrom instants 0 (m + 1) :=
        productionsFrom_append (Nat.zero_le m) (Nat.le_succ m)
      rw [productionsFrom_single] at whole
      cases done : (source.tickNo instants m).done with
      | false =>
          refine ⟨m + 1, ?_, fun n => ⟨fun below => ⟨below, ?_⟩, And.left⟩⟩
          · rw [← whole, beforeLast_concat, front, done]
            rfl
          · rcases Nat.lt_succ_iff_lt_or_eq.mp below with earlier | rfl
            · exact goOn n (Nat.succ_lt_succ earlier)
            · exact done
      | true =>
          refine ⟨m, ?_, fun n => ⟨fun below => ⟨by omega, goOn n (by omega)⟩, ?_⟩⟩
          · rw [← whole, beforeLast_concat, front, done]
            exact List.append_nil _
          · rintro ⟨below, notDone⟩
            rcases Nat.lt_succ_iff_lt_or_eq.mp below with earlier | rfl
            · exact earlier
            · rw [done] at notDone
              cases notDone

/-- Of two lists that number the same things one is a prefix of the other. -/
theorem map_range_prefix_total {α : Type} (thing : Nat → α) (j k : Nat) :
    (List.range j).map thing <+: (List.range k).map thing ∨
      (List.range k).map thing <+: (List.range j).map thing := by
  have shorter {m n : Nat} (bound : m ≤ n) :
      (List.range m).map thing <+: (List.range n).map thing := by
    have front := List.take_prefix m ((List.range n).map thing)
    rwa [← List.map_take, List.take_range, Nat.min_eq_left bound] at front
  exact (Nat.le_total j k).imp shorter shorter

/-- A run that was not cut off: neither by the limit of its consumer, who leaves it waiting,
nor by the end of the clock. -/
def RunState.Complete (state : RunState) : Prop :=
  state ≠ .running ∧ state ≠ .over (.error .clockOverflow)

namespace Ticker

variable {ticker : Ticker} {r : WorkerRamp} {consumer : Consumer} {capacity : Nat}

/-- Before its last tick a run has produced the steps of the ramp, as many as it got to. -/
theorem beforeLast_productions {instants : Nat → Nat} (ramp : ticker.ramp? = some r)
    (instants_eq : consumer.instants r.source.period capacity = instants) :
    ∃ steps, beforeLast (ticker.productions consumer { capacity }) =
        (List.range steps).map (fun n => ⟨r.stepTick n, instants n⟩) ∧
      ∀ n, n < steps ↔ n < (ticker.productions consumer { capacity }).length ∧
        (r.source.tickNo instants n).done = false := by
  have source_eq := source_of_ramp? ramp
  have produced := productions_eq_productionsFrom source_eq instants_eq
  have goOn : ∀ n, n + 1 < (ticker.productions consumer { capacity }).length →
      (r.source.tickNo instants n).done = false := by
    intro n below
    have reaches := reaches_of_lt_length source_eq instants_eq below
    exact TickSource.not_done_of_goes_on (TickSource.reaches_succ_iff.mp reaches).2
  obtain ⟨steps, before, count⟩ := TickSource.exists_beforeLast goOn
  rw [← produced] at before
  refine ⟨steps, before.trans (TickSource.productionsFrom_zero_eq fun n below => ?_), count⟩
  obtain ⟨made, goesOn⟩ := (count n).mp below
  have reaches := reaches_of_lt_length source_eq instants_eq made
  exact (WorkerRamp.tickNo_of_lasts (WorkerRamp.lasts_of_reaches reaches goesOn)).1

/-- Without a budget a run that was not cut off produces at least as many ticks as any
other. -/
theorem length_le_of_complete {quick late : Consumer} {wide narrow : Nat}
    (ramp : ticker.ramp? = some r) (unlimited : r.budget? = none)
    (complete : (ticker.run quick { capacity := wide }).1.state.Complete) :
    (ticker.productions late { capacity := narrow }).length ≤
      (ticker.productions quick { capacity := wide }).length := by
  have source_eq := source_of_ramp? ramp
  obtain ⟨last, outcome, size, ending, state⟩ := ending_of_not_running source_eq rfl complete.1
  have onClock : outcome ≠ .error .clockOverflow := by
    rintro rfl
    exact complete.2 state
  have stops : r.source.ending? (late.instants r.source.period narrow) last ≠ none :=
    WorkerRamp.ending?_ne_none_of_no_budget unlimited ending onClock
  rw [size]
  by_contra more
  have reaches := reaches_of_lt_length source_eq rfl (Nat.lt_of_not_le more)
  exact stops (TickSource.reaches_succ_iff.mp reaches).2

/-- Every step of a run is also one of the run of a consumer with shorter delays and more
room, unless that one is cut off by its consumer's limit. -/
theorem step_of_slower {quick late : Consumer} {wide narrow n : Nat}
    (ramp : ticker.ramp? = some r) (wider : narrow ≤ wide)
    (longer : ∀ i, delayBefore quick.delays i ≤ delayBefore late.delays i)
    (notRunning : (ticker.run quick { capacity := wide }).1.state ≠ .running)
    (made : n < (ticker.productions late { capacity := narrow }).length)
    (goesOn : (r.source.tickNo (late.instants r.source.period narrow) n).done = false) :
    n < (ticker.productions quick { capacity := wide }).length ∧
      (r.source.tickNo (quick.instants r.source.period wide) n).done = false := by
  have source_eq := source_of_ramp? ramp
  have earlier := Consumer.instants_le wider longer r.source.period
  have reachesLate := reaches_of_lt_length source_eq rfl made
  have lasts := WorkerRamp.lasts_of_reaches reachesLate goesOn
  have reaches := WorkerRamp.reaches_of_earlier earlier lasts reachesLate
  obtain ⟨last, outcome, size, ending, _⟩ := ending_of_not_running source_eq rfl notRunning
  constructor
  · rw [size]
    by_contra beyond
    exact TickSource.not_reaches_succ ending (reaches.of_le (Nat.not_lt.mp beyond))
  · rw [(WorkerRamp.tickNo_of_lasts (lasts.of_earlier earlier)).1]
    exact WorkerRamp.stepTick_done n

/-- A slow consumer can shorten a ramp but not alter it.  Without a budget two runs of one
ramp produce the same ticks in the same order; the ticks of one are a prefix of those of the
other if a run is cut off, by the limit of its consumer or by the end of the clock.  With or
without a budget, the same holds of the ticks before the last one.  If the consumer of one run
has shorter delays and more room, and its limit does not cut that run off, the run produces at
least as many of them as the other, each of them no later. -/
theorem slow_consumer_shortens (ticker : Ticker) (ramp : ticker.ramp? = some r)
    (quick late : Consumer) (wide narrow : Nat) :
    let produced := ticker.productions quick { capacity := wide }
    let produced' := ticker.productions late { capacity := narrow }
    let state := (ticker.run quick { capacity := wide }).1.state
    let state' := (ticker.run late { capacity := narrow }).1.state
    let ticks := produced.map (·.tick)
    let ticks' := produced'.map (·.tick)
    let steps := beforeLast produced
    let steps' := beforeLast produced'
    (r.budget? = none →
        (ticks <+: ticks' ∨ ticks' <+: ticks) ∧
          (state.Complete → state'.Complete → ticks = ticks')) ∧
      (steps.map (·.tick) <+: steps'.map (·.tick) ∨
        steps'.map (·.tick) <+: steps.map (·.tick)) ∧
      (narrow ≤ wide → (∀ i, delayBefore quick.delays i ≤ delayBefore late.delays i) →
        state ≠ .running →
        steps'.length ≤ steps.length ∧
          ∀ (n : Nat) (step step' : Production), steps[n]? = some step → steps'[n]? = some step' →
            step.instant ≤ step'.instant) := by
  intro produced produced' state state' ticks ticks' steps steps'
  have source_eq := source_of_ramp? ramp
  obtain ⟨count, steps_eq, counted⟩ := beforeLast_productions ramp
    (rfl : quick.instants r.source.period wide = _)
  obtain ⟨count', steps_eq', counted'⟩ := beforeLast_productions ramp
    (rfl : late.instants r.source.period narrow = _)
  refine ⟨fun unlimited => ?_, ?_, fun wider longer goesOn => ?_⟩
  · have numbered : ticks = (List.range produced.length).map (r.source.tickNo
        (quick.instants r.source.period wide)) :=
      (map_tick_productions source_eq rfl).trans
        (TickSource.ticksFrom_zero_eq fun _ _ => rfl)
    have numbered' : ticks' = (List.range produced'.length).map (r.source.tickNo
        (quick.instants r.source.period wide)) :=
      (map_tick_productions source_eq rfl).trans
        (TickSource.ticksFrom_zero_eq fun n _ => WorkerRamp.tickNo_of_no_budget unlimited n)
    rw [numbered, numbered']
    refine ⟨map_range_prefix_total _ _ _, fun complete complete' => ?_⟩
    have same : produced.length = produced'.length :=
      Nat.le_antisymm (length_le_of_complete ramp unlimited complete')
        (length_le_of_complete ramp unlimited complete)
    rw [same]
  · simp only [steps, steps', produced, produced', steps_eq, steps_eq', List.map_map]
    exact map_range_prefix_total r.stepTick count count'
  · have fewer : count' ≤ count := by
      by_contra more
      obtain ⟨made, step⟩ := (counted' count).mp (Nat.lt_of_not_le more)
      exact Nat.lt_irrefl count
        ((counted count).mpr (step_of_slower ramp wider longer goesOn made step))
    simp only [steps, steps', produced, produced', steps_eq, steps_eq', List.length_map,
      List.length_range]
    refine ⟨fewer, fun n step step' found found' => ?_⟩
    rw [List.range_eq_range'] at found found'
    obtain ⟨_, rfl⟩ := getElem?_numbered_eq_some.mp found
    obtain ⟨_, rfl⟩ := getElem?_numbered_eq_some.mp found'
    exact Consumer.instants_le wider longer r.source.period n

/-- Five workers, two more every two seconds, towards fifteen within five seconds.  A consumer
that takes the first tick three seconds late, from a ticker that cannot run ahead, gets two
ticks before the last one; one that never delays gets three. -/
theorem slow_consumer_shortens_to_fifteen :
    let r : WorkerRamp :=
      { start := 5, step := 2, period := .ofSeconds 2, target := 15
        budget? := some (.ofSeconds 5), step_ne_zero := by decide, period_ne_zero := by decide }
    let steps := beforeLast ((Ticker.step ⟨r⟩).productions {} { capacity := 1 })
    let steps' := beforeLast
      ((Ticker.step ⟨r⟩).productions { delays := [3000000000] } { capacity := 0 })
    steps = [⟨⟨5, false⟩, 0⟩, ⟨⟨2, false⟩, 2000000000⟩, ⟨⟨2, false⟩, 4000000000⟩] ∧
      steps' = [⟨⟨5, false⟩, 0⟩, ⟨⟨2, false⟩, 3000000000⟩] ∧ steps'.length ≤ steps.length := by
  intro r steps steps'
  have source_eq : (Ticker.step ⟨r⟩).source = r.source := rfl
  have size : ((Ticker.step ⟨r⟩).productions {} { capacity := 1 }).length = 4 :=
    (length_productions source_eq rfl).trans (by decide)
  have size' : ((Ticker.step ⟨r⟩).productions { delays := [3000000000] }
      { capacity := 0 }).length = 3 :=
    (length_productions source_eq rfl).trans (by decide)
  have notRunning : ((Ticker.step ⟨r⟩).run {} { capacity := 1 }).1.state ≠ .running := by
    intro running
    rw [length_productions_of_running source_eq rfl running,
      length_events source_eq rfl] at size
    revert size
    decide
  have seen : steps = [⟨⟨5, false⟩, 0⟩, ⟨⟨2, false⟩, 2000000000⟩, ⟨⟨2, false⟩, 4000000000⟩] := by
    simp only [steps]
    rw [productions_eq_productionsFrom source_eq rfl, size]
    decide
  have seen' : steps' = [⟨⟨5, false⟩, 0⟩, ⟨⟨2, false⟩, 3000000000⟩] := by
    simp only [steps']
    rw [productions_eq_productionsFrom source_eq rfl, size']
    decide
  refine ⟨seen, seen', ?_⟩
  have punctual (i : Nat) : delayBefore [] i ≤ delayBefore [3000000000] i := by
    rw [delayBefore, List.getD_nil]
    exact Nat.zero_le _
  exact ((slow_consumer_shortens (.step ⟨r⟩) rfl {} { delays := [3000000000] } 1 0).2.2
    (Nat.zero_le 1) punctual notRunning).1

/-- Five workers towards five, with a period of almost half the time on the clock.  For a
consumer that never delays the ramp ends with its second tick; if the consumer delays the
first tick for more than half the time on the clock, the ticker finds no time for the tick
after the second one, and the run fails without it.  Neither run is cut by a limit. -/
theorem cut_short_at_clock_end :
    let r : WorkerRamp :=
      { start := 5, step := 1, period := .ofSeconds 4500000000000000000, target := 5
        step_ne_zero := by decide, period_ne_zero := by decide }
    let late : Consumer := { delays := [4900000000000000000000000000] }
    let run := (Ticker.step ⟨r⟩).run {} { capacity := 0 }
    let run' := (Ticker.step ⟨r⟩).run late { capacity := 0 }
    r.budget? = none ∧
      ((Ticker.step ⟨r⟩).productions {} { capacity := 0 }).map (·.tick) =
        [⟨5, false⟩, ⟨0, true⟩] ∧
      run.1.state = .over (.ok ()) ∧
      ((Ticker.step ⟨r⟩).productions late { capacity := 0 }).map (·.tick) = [⟨5, false⟩] ∧
      run'.1.state = .over (.error .clockOverflow) := by
  intro r late run run'
  have source_eq : (Ticker.step ⟨r⟩).source = r.source := rfl
  have size : ((Ticker.step ⟨r⟩).productions {} { capacity := 0 }).length = 2 :=
    (length_productions source_eq rfl).trans (by decide)
  have size' : ((Ticker.step ⟨r⟩).productions late { capacity := 0 }).length = 1 :=
    (length_productions source_eq rfl).trans (by decide)
  refine ⟨rfl, ?_, ?_, ?_, ?_⟩
  · rw [map_tick_productions source_eq rfl, size]
    decide
  · refine state_of_ending? (n := 1) source_eq rfl ?_ (by decide) ?_
    · decide
    · rw [length_events source_eq rfl]
      decide
  · rw [map_tick_productions source_eq rfl, size']
    decide
  · refine state_of_ending? (n := 0) source_eq rfl ?_ (by decide) ?_
    · decide
    · rw [length_events source_eq rfl]
      decide

end Ticker

end LoadShape.Workers
